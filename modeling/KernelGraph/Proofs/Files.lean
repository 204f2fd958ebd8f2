import KernelGraph.Files

/-!
# What writing does to files

Writing to a path gives the file to which the path leads its bytes, or creates it, and changes
nothing else: the directories stay what they are, and so do all other files. So the same path leads
to the same file afterwards, which then has the bytes.

## Main definitions

* `Files.place?` — the place of the file that a path leads to, there or not yet

## Main results

* `contents?_put` — the files after one has got new bytes
* `isDirectory_put` — directories stay what they are
* `read_put` — what has been written is read
* `write_eq_ok_iff` — where can be written
-/

namespace KernelGraph

namespace Files

/-- The place of a file that is there or can be created. -/
def Target.place? : Target → Option Place
  | .file place | .vacant place => some place
  | _ => none

/-- The place of the file that a path leads to, or at which it would be created. -/
def place? (fs : Files) (path : String) : Option Place :=
  match fs.resolve path with
  | .ok target => target.place?
  | .error _ => none

variable {fs fs' : Files} {place base q : Place} {names : List String} {path : String}
  {bytes : ByteArray} {target : Target}

/-! ## The contents of files -/

theorem contents?_put (fs : Files) (place other : Place) (bytes : ByteArray) :
    (fs.put place bytes).contents? other =
      if other = place then some bytes else fs.contents? other := by
  rw [contents?, put, List.lookup_cons]
  by_cases h : other = place
  · rw [beq_iff_eq.mpr h, if_pos h]
  · rw [beq_eq_false_iff_ne.mpr h, if_neg h, contents?]
    dsimp only
    induction fs.files with
    | nil => rfl
    | cons f rest ih =>
      obtain ⟨key, old⟩ := f
      by_cases hkey : key = place
      · rw [List.filter_cons_of_neg (by simpa using hkey), ih, List.lookup_cons,
          beq_eq_false_iff_ne.mpr (hkey ▸ h)]
      · rw [List.filter_cons_of_pos (by simpa using hkey), List.lookup_cons, List.lookup_cons, ih]

/-! ## Directories -/

theorem isDirectory_iff : fs.isDirectory q ↔
    q <+: fs.home ∨ (∃ d ∈ fs.directories, q <+: d) ∨ (∃ d ∈ systemDirectories, q <+: [d]) ∨
      (∃ d ∈ Device.places, q <+: d.1 ∧ q ≠ d.1) ∨ ∃ f ∈ fs.files, q <+: f.1 ∧ q ≠ f.1 := by
  simp only [isDirectory, Bool.or_eq_true, List.any_eq_true, List.isPrefixOf_iff_prefix,
    Bool.and_eq_true, decide_eq_true_eq, or_assoc]

/-- A place is a directory without regard to the files, or because a file is in it. -/
theorem isDirectory_iff_files : fs.isDirectory q ↔
    ({ fs with files := [] } : Files).isDirectory q ∨ ∃ f ∈ fs.files, q <+: f.1 ∧ q ≠ f.1 := by
  rw [isDirectory_iff, isDirectory_iff]
  simp only [List.not_mem_nil, false_and, exists_false, or_false, or_assoc]

theorem isDirectory_of_below (h : q <+: base) (hbase : fs.isDirectory base) :
    fs.isDirectory q := by
  have hstrict : ∀ place : Place, base <+: place → base ≠ place → q ≠ place := by
    rintro place hbelow hne rfl
    exact hne (hbelow.eq_of_length (Nat.le_antisymm hbelow.length_le h.length_le))
  rw [isDirectory_iff] at hbase ⊢
  rcases hbase with hhome | ⟨d, hd, hbelow⟩ | ⟨d, hd, hbelow⟩ | ⟨d, hd, hbelow, hne⟩ |
    ⟨f, hf, hbelow, hne⟩
  · exact .inl (h.trans hhome)
  · exact .inr (.inl ⟨d, hd, h.trans hbelow⟩)
  · exact .inr (.inr (.inl ⟨d, hd, h.trans hbelow⟩))
  · exact .inr (.inr (.inr (.inl ⟨d, hd, h.trans hbelow, hstrict d.1 hbelow hne⟩)))
  · exact .inr (.inr (.inr (.inr ⟨f, hf, h.trans hbelow, hstrict f.1 hbelow hne⟩)))

theorem isDirectory_home : fs.isDirectory fs.home :=
  isDirectory_iff.mpr (.inl (List.prefix_refl _))

theorem isDirectory_root : fs.isDirectory [] :=
  isDirectory_of_below List.nil_prefix isDirectory_home

/-- A file in a directory makes no new directories, and none is lost. -/
theorem isDirectory_put (hbase : fs.isDirectory base) (name : String) (bytes : ByteArray)
    (q : Place) : (fs.put (base ++ [name]) bytes).isDirectory q = fs.isDirectory q := by
  rw [Bool.eq_iff_iff, isDirectory_iff_files]
  constructor
  · rintro (h | ⟨f, hf, hbelow, hne⟩)
    · exact isDirectory_iff_files.mpr (.inl h)
    · rcases List.mem_cons.mp hf with rfl | hf
      · exact isDirectory_of_below ((List.prefix_concat_iff.mp hbelow).resolve_left hne) hbase
      · exact isDirectory_iff_files.mpr (.inr ⟨f, (List.mem_filter.mp hf).1, hbelow, hne⟩)
  · intro h
    rcases isDirectory_iff_files.mp h with h | ⟨f, hf, hbelow, hne⟩
    · exact .inl h
    · refine .inr ?_
      by_cases hplace : f.1 = base ++ [name]
      · exact ⟨_, List.mem_cons_self, hplace ▸ hbelow, hplace ▸ hne⟩
      · have hkept : f ∈ fs.files.filter (·.1 ≠ base ++ [name]) :=
          List.mem_filter.mpr ⟨hf, decide_eq_true hplace⟩
        exact ⟨f, List.mem_cons_of_mem _ hkept, hbelow, hne⟩

/-! ## Paths -/

/-- A path to a file ends with a name in a directory. -/
theorem exists_of_follow (hbase : fs.isDirectory base) (h : fs.follow base names = .ok target)
    (hplace : target.place? = some place) :
    ∃ directory name, place = directory ++ [name] ∧ fs.isDirectory directory := by
  fun_induction follow fs base names with
  | case1 base =>
    cases h
    cases hplace
  | case2 base name rest hname ih => exact ih hbase h
  | case3 base rest hname ih => exact ih (isDirectory_of_below (List.dropLast_prefix _) hbase) h
  | case4 base name rest hname hup hdirectory ih => exact ih hdirectory h
  | case5 base name rest hname hup hdirectory hrest =>
    rw [leaf] at h
    split at h
    · cases h
    · split at h
      · cases h
        cases hplace
      · obtain rfl := Except.ok.inj h
        obtain rfl : base ++ [name] = place := by
          split at hplace <;> exact Option.some.inj hplace
        exact ⟨base, name, rfl, hbase⟩
  | case6 base name rest hname hup hdirectory hrest hslashed =>
    cases h
    cases hplace
  | case7 base name rest hname hup hdirectory hrest hslashed => cases h

/-- A path to a file leads to it when it has got new bytes. -/
theorem follow_put (hbase : fs.isDirectory base) (h : fs.follow base names = .ok target)
    (hplace : target.place? = some place) (bytes : ByteArray) :
    (fs.put place bytes).follow base names = .ok (.file place) := by
  obtain ⟨directory, last, hlast, hdirectory⟩ := exists_of_follow hbase h hplace
  have hsame : ∀ q, (fs.put place bytes).isDirectory q = fs.isDirectory q := by
    rw [hlast]
    exact isDirectory_put hdirectory last bytes
  clear hbase
  fun_induction follow fs base names with
  | case1 base =>
    cases h
    cases hplace
  | case2 base name rest hname ih =>
    rw [follow, if_pos hname]
    exact ih h
  | case3 base rest hname ih =>
    rw [follow, if_neg hname, if_pos rfl]
    exact ih h
  | case4 base name rest hname hup hentered ih =>
    rw [follow, if_neg hname, if_neg hup, hsame, if_pos hentered]
    exact ih h
  | case5 base name rest hname hup hentered hrest =>
    rw [follow, if_neg hname, if_neg hup, hsame, if_neg hentered, if_pos hrest]
    rw [leaf] at h ⊢
    split at h
    · cases h
    · rename_i hshort
      split at h
      · cases h
        cases hplace
      · obtain rfl := Except.ok.inj h
        obtain rfl : base ++ [name] = place := by
          split at hplace <;> exact Option.some.inj hplace
        rw [if_neg hshort, contents?_put, if_pos rfl]
        rfl
  | case6 base name rest hname hup hentered hrest hslashed =>
    cases h
    cases hplace
  | case7 base name rest hname hup hentered hrest hslashed => cases h

/-- A path to a file leads to it when it has got new bytes. -/
theorem resolve_put (h : fs.place? path = some place) (bytes : ByteArray) :
    (fs.put place bytes).resolve path = .ok (.file place) := by
  rw [place?] at h
  split at h
  · rename_i target hresolve
    rw [resolve] at hresolve ⊢
    split at hresolve
    · cases hresolve
    rename_i hnul
    split at hresolve
    · cases hresolve
    rename_i hempty
    split at hresolve
    · cases hresolve
    rename_i hlong
    rw [if_neg hnul, if_neg hempty, if_neg hlong]
    refine follow_put ?_ hresolve h bytes
    split
    · exact isDirectory_root
    · exact isDirectory_home
  · cases h

/-- What has been written to a file is read. -/
theorem read_put (h : fs.place? path = some place) (bytes : ByteArray) :
    (fs.put place bytes).read path = .ok bytes := by
  rw [read, resolve_put h]
  dsimp only
  rw [contents?_put, if_pos rfl]

/-- Writing gives a file its bytes, or leaves them to a device that takes them. -/
theorem write_eq_ok_iff : fs.write path bytes = .ok fs' ↔
    (∃ place, fs.place? path = some place ∧ fs.put place bytes = fs') ∨
      (∃ d, fs.device? path = some d ∧ d ≠ .terminal ∧ (d = .full → bytes.isEmpty) ∧ fs = fs') := by
  rw [write, place?, device?]
  rcases fs.resolve path with e | target
  · simp
  · cases target with
    | device d =>
      cases d with
      | full => by_cases hempty : bytes.isEmpty <;> simp [Target.place?, hempty]
      | _ => simp [Target.place?]
    | _ => simp [Target.place?]

end Files

end KernelGraph
