import Mathlib.Data.List.Basic
import OpcWire.Files.Tree
import OpcWire.Proofs.Generator.Definitions
import OpcWire.Proofs.Text.Lines

/-!
# What operations do to a tree of files

A path leads to the same place as long as directories stay directories (`FileTree.locate_mono`), and
every operation keeps them. Making directories adds some where nothing was and changes nothing else,
whether it succeeds or not; if it succeeds then there is a directory at the end of the path
(`FileTree.makesDirectory_createDirectories`). Files that are written
into a directory one after the other are there in the end, and nothing else has changed
(`FileTree.Receives.of_writeAll`).
-/

namespace OpcWire

/-! ### Paths of files in a directory -/

namespace Path

variable {directory name : String}

/-- Whether a name is one step of a path, to a place below the one where it starts. -/
def IsPlain (name : String) : Prop := name ≠ "" ∧ name ≠ "." ∧ name ≠ ".." ∧ '/' ∉ name.toList

instance (name : String) : Decidable (IsPlain name) := inferInstanceAs (Decidable (_ ∧ _))

theorem steps_append_slash (a b : String) : steps (a ++ "/" ++ b) = steps a ++ steps b := by
  have hslash : (a ++ "/" ++ b).toList = a.toList ++ '/' :: b.toList := by simp
  rw [steps, hslash, Text.splitAt_append_cons, List.filter_append, List.map_append, steps, steps]

theorem steps_of_isPlain (h : IsPlain name) : steps name = [name] := by
  have hne : name.toList.isEmpty = false := by
    rw [List.isEmpty_eq_false_iff]
    exact mt String.toList_eq_nil_iff.1 h.1
  rw [steps, Text.splitAt_of_notMem h.2.2.2, List.filter_cons_of_pos (by rw [hne]; rfl), List.filter_nil,
    List.map_singleton, String.ofList_toList]

theorem eq_append_slash_of_isDirectoryOnly (h : isDirectoryOnly directory = true) :
    ∃ rest, directory = rest ++ "/" := by
  obtain ⟨chars, hchars⟩ := List.getLast?_eq_some_iff.1 (beq_iff_eq.1 h)
  refine ⟨String.ofList chars, String.toList_inj.1 ?_⟩
  rw [hchars, String.toList_append, String.toList_ofList]
  rfl

theorem steps_join (h : IsPlain name) : steps (join directory name) = steps directory ++ [name] := by
  rw [join]
  split
  · rename_i hslash
    obtain ⟨rest, rfl⟩ := eq_append_slash_of_isDirectoryOnly hslash
    have hrest : steps (rest ++ "/") = steps rest := by
      rw [← String.append_empty (s := rest ++ "/"), steps_append_slash]
      exact List.append_nil _
    rw [steps_append_slash, hrest, steps_of_isPlain h]
  · rw [steps_append_slash, steps_of_isPlain h]

theorem isAbsolute_join (h : directory ≠ "") : isAbsolute (join directory name) = isAbsolute directory := by
  have hhead (rest : String) : (directory ++ rest).toList.head? = directory.toList.head? := by
    rw [String.toList_append]
    exact List.head?_append_of_ne_nil _ (mt String.toList_eq_nil_iff.1 h)
  rw [join, isAbsolute, isAbsolute]
  split
  · rw [hhead]
  · rw [String.append_assoc, hhead]

end Path

namespace FileTree

variable {t u v : FileTree} {place other : Place} {path directory name text : String}
  {steps : List String} {fault : FileFault}

/-! ### Places that are set -/

theorem isPrefixOf_workingDirectory_of_get?_ne (h : t.get? place ≠ some .directory) :
    place.isPrefixOf t.workingDirectory = false := by
  rw [get?] at h
  split at h
  · exact absurd rfl h
  · exact Bool.eq_false_iff.2 ‹_›

theorem get?_set {entry : FileEntry} (h : t.get? place ≠ some .directory) :
    (t.set place entry).get? other = if other = place then some entry else t.get? other := by
  split
  · subst other
    exact get?_set_self entry (isPrefixOf_workingDirectory_of_get?_ne h)
  · exact get?_set_of_ne entry ‹_›

/-- Whether what is a directory in one tree is one in another. -/
structure KeepsDirectories (t u : FileTree) : Prop where
  /-- The working directory is the same. -/
  workingDirectory_eq : u.workingDirectory = t.workingDirectory
  /-- Directories are directories. -/
  get?_eq : ∀ place, t.get? place = some .directory → u.get? place = some .directory

theorem KeepsDirectories.trans (h : t.KeepsDirectories u) (h' : u.KeepsDirectories v) :
    t.KeepsDirectories v :=
  ⟨h'.workingDirectory_eq.trans h.workingDirectory_eq,
    fun place hplace => h'.get?_eq place (h.get?_eq place hplace)⟩

/-- What is put at a place that is not a directory leaves directories as they are. -/
theorem keepsDirectories_set {entry : FileEntry} (h : t.get? place ≠ some .directory) :
    t.KeepsDirectories (t.set place entry) := by
  refine ⟨rfl, fun other hother => ?_⟩
  have hne : other ≠ place := fun heq => h (heq ▸ hother)
  rwa [get?_set h, if_neg hne]

/-- Whether one tree is another with directories where nothing was. -/
structure AddsDirectories (t u : FileTree) : Prop where
  /-- The working directory is the same. -/
  workingDirectory_eq : u.workingDirectory = t.workingDirectory
  /-- A place holds what it held, or a directory instead of nothing. -/
  get?_eq_or : ∀ place, u.get? place = t.get? place ∨
    t.get? place = none ∧ u.get? place = some .directory

namespace AddsDirectories

theorem refl (t : FileTree) : t.AddsDirectories t := ⟨rfl, fun _ => .inl rfl⟩

theorem trans (h : t.AddsDirectories u) (h' : u.AddsDirectories v) : t.AddsDirectories v := by
  refine ⟨h'.workingDirectory_eq.trans h.workingDirectory_eq, fun place => ?_⟩
  rcases h.get?_eq_or place with heq | ⟨hnone, hdirectory⟩
  · rw [← heq]
    exact h'.get?_eq_or place
  · refine .inr ⟨hnone, ?_⟩
    rcases h'.get?_eq_or place with heq | ⟨-, hdirectory'⟩
    · exact heq.trans hdirectory
    · exact hdirectory'

theorem keepsDirectories (h : t.AddsDirectories u) : t.KeepsDirectories u := by
  refine ⟨h.workingDirectory_eq, fun place hplace => ?_⟩
  rcases h.get?_eq_or place with heq | ⟨hnone, -⟩
  · exact heq.trans hplace
  · exact absurd (hnone.symm.trans hplace) nofun

end AddsDirectories

theorem addsDirectories_set (h : t.get? place = none) : t.AddsDirectories (t.set place .directory) := by
  refine ⟨rfl, fun other => ?_⟩
  rw [get?_set (by rw [h]; exact nofun)]
  split
  · subst other
    exact .inr ⟨h, rfl⟩
  · exact .inl rfl

/-! ### Following a path -/

theorem get?_of_step (h : t.step place name = .ok other) : t.get? place = some .directory := by
  unfold step at h
  split at h
  · cases h
  · cases h
  · cases h
  · assumption

/-- Where a step leads depends on nothing but whether it starts from a directory. -/
theorem step_mono (h : t.KeepsDirectories u) (hstep : t.step place name = .ok other) :
    u.step place name = .ok other := by
  have hdirectory := get?_of_step hstep
  unfold step at hstep ⊢
  rw [hdirectory] at hstep
  rw [h.get?_eq place hdirectory]
  exact hstep

theorem step_dot (h : t.get? place = some .directory) : t.step place "." = .ok place := by
  simp only [step, h]

theorem eq_append_of_step (hname : Path.IsPlain name) (h : t.step place name = .ok other) :
    other = place ++ [name] := by
  obtain ⟨-, hdot, hdots, -⟩ := hname
  have hdirectory := get?_of_step h
  unfold step at h
  simp only [hdirectory] at h
  split at h
  · exact (Except.ok.inj h).symm
  · cases h

theorem follow_append (xs ys : List String) :
    t.follow place (xs ++ ys) = t.follow place xs >>= (t.follow · ys) := by
  induction xs generalizing place with
  | nil => rfl
  | cons name rest ih =>
    rw [List.cons_append, follow, follow]
    cases t.step place name with
    | error fault => rfl
    | ok next => exact ih

theorem follow_singleton : t.follow place [name] = t.step place name := by
  rw [follow]
  cases t.step place name <;> rfl

theorem follow_mono (h : t.KeepsDirectories u) (hfollow : t.follow place steps = .ok other) :
    u.follow place steps = .ok other := by
  induction steps generalizing place with
  | nil => exact hfollow
  | cons name rest ih =>
    obtain ⟨next, hstep, hrest⟩ := bind_eq_ok_iff.1 hfollow
    exact bind_eq_ok_iff.2 ⟨next, step_mono h hstep, ih hrest⟩

theorem locate_eq_ok_iff : t.locate path steps = .ok place ↔
    (path ≠ "" ∧ Path.isValid path = true ∧ path.utf8ByteSize ≤ pathLimit) ∧
      t.follow (t.start path) steps = .ok place := by
  rw [locate]
  split
  · rename_i h
    simp [String.isEmpty_iff.1 h]
  · rename_i hempty
    rw [String.isEmpty_iff] at hempty
    split
    · simp_all
    · split
      · simp; omega
      · simp_all

/-- **A path leads to the same place as long as directories stay directories.** -/
theorem locate_mono (h : t.KeepsDirectories u) (hlocate : t.locate path steps = .ok place) :
    u.locate path steps = .ok place := by
  obtain ⟨hpath, hfollow⟩ := locate_eq_ok_iff.1 hlocate
  refine locate_eq_ok_iff.2 ⟨hpath, ?_⟩
  rw [start, h.workingDirectory_eq]
  exact follow_mono h hfollow

/-! ### Directories -/

/-- A path to a directory leads to it whether a slash ends it or not. -/
theorem isDirectory_iff : t.isDirectory path = true ↔
    ∃ place, t.locate path (Path.steps path) = .ok place ∧ t.get? place = some .directory := by
  have hinto (place : Place) (hplace : t.get? place = some .directory) :
      t.locate path (stepsInto path) = .ok place ↔ t.locate path (Path.steps path) = .ok place := by
    rw [locate_eq_ok_iff, locate_eq_ok_iff, stepsInto]
    refine and_congr_right fun _ => ?_
    split
    · rw [follow_append, bind_eq_ok_iff]
      simp only [follow_singleton]
      constructor
      · rintro ⟨before, hbefore, hstep⟩
        rw [step_dot (get?_of_step hstep)] at hstep
        exact Except.ok.inj hstep ▸ hbefore
      · intro h
        exact ⟨place, h, step_dot hplace⟩
    · rw [List.append_nil]
  rw [isDirectory]
  constructor
  · intro h
    split at h
    · rename_i place hlocate
      have hplace := beq_iff_eq.1 h
      exact ⟨place, (hinto place hplace).1 hlocate, hplace⟩
    · cases h
  · rintro ⟨place, hlocate, hplace⟩
    rw [(hinto place hplace).2 hlocate]
    exact beq_iff_eq.2 hplace

theorem createDirectory_eq_ok_iff : t.createDirectory path = .ok u ↔
    ∃ place, t.locate path (Path.steps path) = .ok place ∧ t.get? place = none ∧
      u = t.set place .directory := by
  rw [createDirectory, bind_eq_ok_iff]
  refine exists_congr fun place => and_congr_right fun _ => ?_
  cases t.get? place with
  | none => exact ⟨fun h => ⟨rfl, (Except.ok.inj h).symm⟩, fun h => congrArg Except.ok h.2.symm⟩
  | some entry => exact iff_of_false nofun nofun

/-- What making a directory does: it adds directories, and if it succeeds there is one at the end of
the path. -/
def MakesDirectory (t : FileTree) (path : String) (outcome : Except FileFault Unit × FileTree) : Prop :=
  t.AddsDirectories outcome.2 ∧ (outcome.1 = .ok () → outcome.2.isDirectory path = true)

theorem makesDirectory_of_createDirectory (h : t.createDirectory path = .ok u) :
    t.MakesDirectory path (.ok (), u) := by
  obtain ⟨place, hlocate, hnone, rfl⟩ := createDirectory_eq_ok_iff.1 h
  have hadds := addsDirectories_set hnone
  refine ⟨hadds, fun _ => isDirectory_iff.2 ⟨place, locate_mono hadds.keepsDirectories hlocate, ?_⟩⟩
  rw [get?_set (by rw [hnone]; exact nofun), if_pos rfl]

theorem makesDirectory_again (t : FileTree) (path : String) :
    t.MakesDirectory path (createBelow.again path t) := by
  rw [createBelow.again]
  split
  · exact makesDirectory_of_createDirectory ‹_›
  · refine ⟨.refl t, fun h => ?_⟩
    dsimp only at h ⊢
    split at h
    · assumption
    · cases h

/-- **A directory is made with the one above it**, if making that one adds directories. -/
theorem makesDirectory_createBelow {above : FileTree → Except FileFault Unit × FileTree}
    (habove : ∀ t : FileTree, t.AddsDirectories (above t).2) (path : String) (t : FileTree) :
    t.MakesDirectory path (t.createBelow above path) := by
  rw [createBelow]
  split
  · exact makesDirectory_of_createDirectory ‹_›
  · split
    · rename_i fault u hu
      exact ⟨by simpa [hu] using habove t, nofun⟩
    · rename_i u hu
      have hadds : t.AddsDirectories u := by simpa [hu] using habove t
      obtain ⟨hagain, hdirectory⟩ := makesDirectory_again u path
      exact ⟨hadds.trans hagain, hdirectory⟩
  · exact makesDirectory_again t path

theorem addsDirectories_createSteps (absolute : Bool) (steps : List String) (t : FileTree) :
    t.AddsDirectories (createSteps absolute steps t).2 := by
  induction steps generalizing t with
  | nil => exact .refl t
  | cons name rest ih => exact (makesDirectory_createBelow ih _ t).1

/-- **Making directories adds directories**, and if it succeeds there is one at the end of the
path. -/
theorem makesDirectory_createDirectories (t : FileTree) (path : String) :
    t.MakesDirectory path (t.createDirectories path) :=
  makesDirectory_createBelow (addsDirectories_createSteps _ _) path t

/-! ### Files in a directory -/

theorem write_eq_ok_iff : t.write path text = .ok u ↔
    ∃ place, t.locate path (Path.steps path) = .ok place ∧ Path.isDirectoryOnly path = false ∧
      t.get? place ≠ some .directory ∧ u = t.set place (.file text) := by
  rw [write, bind_eq_ok_iff]
  refine exists_congr fun place => and_congr_right fun _ => ?_
  split
  · rename_i h
    refine iff_of_false nofun ?_
    rintro ⟨hpath, hplace, -⟩
    simp [hpath, hplace] at h
  · rename_i h
    rw [Bool.or_eq_true, not_or, Bool.not_eq_true, beq_iff_eq] at h
    exact ⟨fun hu => ⟨h.1, h.2, (Except.ok.inj hu).symm⟩, fun hu => congrArg Except.ok hu.2.2.symm⟩

theorem locate_join (hname : Path.IsPlain name)
    (hdirectory : t.locate directory (Path.steps directory) = .ok place)
    (h : t.locate (Path.join directory name) (Path.steps (Path.join directory name)) = .ok other) :
    other = place ++ [name] := by
  obtain ⟨⟨hne, -⟩, hplace⟩ := locate_eq_ok_iff.1 hdirectory
  obtain ⟨-, hother⟩ := locate_eq_ok_iff.1 h
  rw [Path.steps_join hname, start, Path.isAbsolute_join hne, ← start, follow_append, hplace] at hother
  have hstep : t.step place name = .ok other := follow_singleton.symm.trans hother
  exact eq_append_of_step hname hstep

/-- Write files into a directory, one after the other. -/
def writeAll (t : FileTree) (directory : String) (files : List (String × String)) :
    Except FileFault FileTree :=
  files.foldlM (fun t (name, text) => t.write (Path.join directory name) text) t

/-- Whether one tree is another with files in the directory at a place. -/
structure Receives (t : FileTree) (place : Place) (files : List (String × String)) (u : FileTree) :
    Prop where
  /-- Directories are directories. -/
  keepsDirectories : t.KeepsDirectories u
  /-- The files are there. -/
  get?_file : ∀ name text, (name, text) ∈ files → u.get? (place ++ [name]) = some (.file text)
  /-- Other places hold what they held. -/
  get?_eq : ∀ other, (∀ name ∈ files.map Prod.fst, other ≠ place ++ [name]) → u.get? other = t.get? other

/-- **Files that are written into a directory are there in the end, and nothing else has
changed.** -/
theorem Receives.of_writeAll {files : List (String × String)}
    (hplain : ∀ name ∈ files.map Prod.fst, Path.IsPlain name) (hnodup : (files.map Prod.fst).Nodup)
    (hdirectory : t.locate directory (Path.steps directory) = .ok place)
    (h : t.writeAll directory files = .ok u) : t.Receives place files u := by
  induction files generalizing t with
  | nil =>
    obtain rfl := Except.ok.inj h
    exact ⟨⟨rfl, fun _ h => h⟩, nofun, fun _ _ => rfl⟩
  | cons file rest ih =>
    obtain ⟨name, text⟩ := file
    rw [List.map_cons, List.forall_mem_cons] at hplain
    rw [List.map_cons, List.nodup_cons] at hnodup
    rw [writeAll, List.foldlM_cons] at h
    obtain ⟨v, hv, hrest⟩ := bind_eq_ok_iff.1 h
    obtain ⟨other, hother, -, hnone, rfl⟩ := write_eq_ok_iff.1 hv
    obtain rfl := locate_join hplain.1 hdirectory hother
    have hkeeps : t.KeepsDirectories (t.set (place ++ [name]) (.file text)) :=
      keepsDirectories_set hnone
    obtain ⟨hkeeps', hfile, hothers⟩ := ih hplain.2 hnodup.2 (locate_mono hkeeps hdirectory) hrest
    have hinj (other : String) : place ++ [name] = place ++ [other] ↔ name = other := by simp
    refine ⟨hkeeps.trans hkeeps', fun n x hmem => ?_, fun p hp => ?_⟩
    · rcases List.mem_cons.1 hmem with heq | hmem
      · obtain ⟨rfl, rfl⟩ := Prod.mk.inj heq
        rw [hothers _ fun n' hn' heq => hnodup.1 ((hinj n').1 heq ▸ hn'), get?_set hnone, if_pos rfl]
      · exact hfile n x hmem
    · rw [List.map_cons, List.forall_mem_cons] at hp
      rw [hothers p hp.2, get?_set hnone, if_neg hp.1]

end FileTree

end OpcWire
