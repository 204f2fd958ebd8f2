import KernelGraph.Host
import KernelGraph.Proofs.Files

/-!
# What writing does to a world

A text is written to the standard output or to what a path leads to, which may be the standard
output as well. Where the world takes the text, it gets there and nowhere else; where the world
refuses it, nothing has changed.

## Main definitions

* `World.Takes` — whether a text can be written
* `World.Delivered` — where a text has got to

## Main results

* `World.print_of_takes`, `World.print_of_not_takes` — printing
* `World.writeFile_of_takes`, `World.writeFile_of_not_takes` — writing to a path
-/

namespace KernelGraph

theorem fromUTF8?_toUTF8 (text : String) : String.fromUTF8? text.toUTF8 = some text := by
  have hvalid : text.toUTF8.IsValidUTF8 := text.isValidUTF8
  rw [String.fromUTF8?, dif_pos hvalid]
  rfl

theorem isEmpty_toUTF8_iff {text : String} : text.toUTF8.isEmpty ↔ text = "" := by
  rw [ByteArray.isEmpty, beq_iff_eq]
  exact String.utf8ByteSize_eq_zero_iff

namespace World

/-- A text can be written: to the standard output, which takes the empty text in any case, or to a
path. -/
def Takes (w : World) (text : String) : Option String → Prop
  | none => w.refusal = none ∨ text = ""
  | some path => ∃ files, w.write path text.toUTF8 = .ok files

theorem takes_errors {w : World} {text errors : String} {output : Option String} :
    ({ w with errors := errors } : World).Takes text output ↔ w.Takes text output := by
  cases output <;> rfl

/-- A text has got to where a run puts its output, and nowhere else: to the standard output, to the
file at a path, which holds the text and nothing more, or to a device. -/
inductive Delivered (text : String) (before after : World) : Option String → Prop
  | printed (hprinted : after.printed = before.printed ++ text)
    (hfiles : after.files = before.files) : Delivered text before after none
  | stored (path : String) (place : Place) (hplace : before.files.place? path = some place)
    (hread : after.files.read path = .ok text.toUTF8)
    (hothers : ∀ other, other ≠ place →
      after.files.contents? other = before.files.contents? other)
    (hprinted : after.printed = before.printed) : Delivered text before after (some path)
  | device (path : String) (d : Device) (hdevice : before.files.device? path = some d)
    (hprinted : after.printed =
      if d = .output then before.printed ++ text else before.printed)
    (hfiles : after.files = before.files) : Delivered text before after (some path)

variable {w before after : World} {text path errors : String} {bytes : ByteArray} {files : Files}
  {output : Option String}

/-- Where a text has got to does not depend on the error output before. -/
theorem Delivered.of_errors (h : Delivered text { before with errors := errors } after output) :
    Delivered text before after output := by
  cases h with
  | printed hprinted hfiles => exact .printed hprinted hfiles
  | stored path place hplace hread hothers hprinted =>
    exact .stored path place hplace hread hothers hprinted
  | device path d hdevice hprinted hfiles => exact .device path d hdevice hprinted hfiles

/-! ## Printing -/

theorem print_of_takes (h : w.Takes text none) :
    ∃ after, w.print text = (.ok (), after) ∧ Delivered text w after none := by
  rw [print]
  cases hrefusal : w.refusal with
  | none => exact ⟨_, rfl, .printed rfl rfl⟩
  | some e =>
    obtain rfl : text = "" := h.resolve_left (by simp [hrefusal])
    exact ⟨w, rfl, .printed String.append_empty.symm rfl⟩

/-- That a text is refused is noticed at a line break. -/
theorem print_of_not_takes (hlines : '\n' ∈ text.toList ∨ text = "") (h : ¬ w.Takes text none) :
    ∃ e, w.print text = (.error e, w) := by
  obtain ⟨hrefusal, hne⟩ := not_or.mp h
  obtain ⟨e, he⟩ := Option.ne_none_iff_exists'.mp hrefusal
  refine ⟨e, ?_⟩
  rw [print, he]
  dsimp only
  rw [if_pos (hlines.resolve_right hne)]

/-! ## Writing to a path -/

theorem write_eq_ok_iff : w.write path bytes = .ok files ↔
    w.files.write path bytes = .ok files ∧
      (w.files.device? path = some .output → w.refusal = none ∨ bytes.isEmpty) := by
  rw [write]
  cases w.files.write path bytes with
  | error e => simp
  | ok written =>
    cases w.refusal with
    | none => simp
    | some e =>
      by_cases hdevice : w.files.device? path = some .output <;> cases bytes.isEmpty <;>
        simp [hdevice]

/-- A text that has been written to a path has got there. -/
theorem delivered_received (h : w.write path text.toUTF8 = .ok files) :
    Delivered text w ({ w with files := files }.received path text) (some path) := by
  obtain ⟨hwrite, houtput⟩ := write_eq_ok_iff.mp h
  rcases Files.write_eq_ok_iff.mp hwrite with ⟨place, hplace, rfl⟩ | ⟨d, hdevice, -, -, rfl⟩
  · have hnone : (w.files.put place text.toUTF8).device? path = none := by
      rw [Files.device?, Files.resolve_put hplace]
    rw [received, hnone]
    refine .stored path place hplace (Files.read_put hplace _) (fun other hother => ?_) rfl
    exact (Files.contents?_put w.files place other _).trans (if_neg hother)
  · rw [received, hdevice]
    cases d with
    | output =>
      rcases houtput hdevice with hrefusal | hempty
      · dsimp only
        rw [hrefusal]
        exact .device path _ hdevice rfl rfl
      · obtain rfl := isEmpty_toUTF8_iff.mp hempty
        dsimp only
        split
        · exact .device path _ hdevice String.append_empty.symm rfl
        · exact .device path _ hdevice rfl rfl
    | _ => exact .device path _ hdevice rfl rfl

theorem writeFile_of_takes (h : w.Takes text (some path)) :
    ∃ after, w.writeFile path text.toUTF8 = (.ok (), after) ∧
      Delivered text w after (some path) := by
  obtain ⟨files, hwrite⟩ := h
  refine ⟨_, ?_, delivered_received hwrite⟩
  rw [writeFile, hwrite, fromUTF8?_toUTF8]
  rfl

theorem writeFile_of_not_takes (h : ¬ w.Takes text (some path)) :
    ∃ e, w.writeFile path text.toUTF8 = (.error e, w) := by
  rw [writeFile]
  cases hwrite : w.write path text.toUTF8 with
  | error e => exact ⟨e, rfl⟩
  | ok files => exact absurd ⟨files, hwrite⟩ h

end World

end KernelGraph
