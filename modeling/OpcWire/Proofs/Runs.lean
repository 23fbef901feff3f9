import OpcWire.CommandLine.Run
import OpcWire.Proofs.Files.Tree
import OpcWire.Proofs.Generator.Run

/-!
# What runs of the command line leave behind

A run reads its input and makes all files before it stores the first one. On any file system where
reading changes nothing, it therefore comes to storing the files that the input makes
(`Arguments.Request.run_of_generates`), or fails and leaves the state as it was, if the input makes
none (`Arguments.Request.run_of_not_generates`). In a tree of files, storing changes the places of
these files and nothing else (`FileTree.stored_of_writeAll`).
-/

namespace OpcWire

/-! ### Actions that can fail -/

section

variable {ε α β σ : Type} {x : ExceptT ε (StateM σ) α} {f : α → ExceptT ε (StateM σ) β} {s s' : σ}

theorem run_bind_of_ok {a : α} (h : x.run.run s = (.ok a, s')) :
    (x >>= f).run.run s = (f a).run.run s' := by
  rw [ExceptT.run_bind, StateT.run_bind, h]
  rfl

theorem run_bind_of_error {e : ε} (h : x.run.run s = (.error e, s')) :
    (x >>= f).run.run s = (.error e, s') := by
  rw [ExceptT.run_bind, StateT.run_bind, h]
  rfl

theorem run_liftM_bind {x : StateM σ α} {a : α} (h : x.run s = (a, s')) :
    ((liftM x : ExceptT ε (StateM σ) α) >>= f).run.run s = (f a).run.run s' := by
  refine run_bind_of_ok ?_
  change (Except.ok <$> x).run s = _
  rw [StateT.run_map, h]
  rfl

end

namespace Arguments.Request

variable {σ α : Type} {system : FileSystem (StateM σ)} {s : σ}
  {read : String → Except FileFault String} {path directory : String}
  {parse : String → Except GenerateError α} {r : Request} {files : GeneratedFiles}

/-! ### Making files -/

/-- The table that is read where one is asked for. -/
inductive ReadsTable (r : Request) (read : String → Except FileFault String) : Option IdTable → Prop
  /-- No table is asked for. -/
  | none (h : r.identifiers = none) : r.ReadsTable read none
  /-- A table is asked for, and read. -/
  | some {path csv : String} {t : IdTable} (h : r.identifiers = some path) (hcsv : read path = .ok csv)
      (ht : IdTable.parse csv = .ok t) : r.ReadsTable read (some t)

theorem ReadsTable.unique {table table' : Option IdTable} (h : r.ReadsTable read table)
    (h' : r.ReadsTable read table') : table = table' := by
  cases h with
  | none hids =>
    cases h' with
    | none => rfl
    | some hids' => exact absurd (hids.symm.trans hids') nofun
  | some hids hcsv ht =>
    cases h' with
    | none hids' => exact absurd (hids'.symm.trans hids) nofun
    | some hids' hcsv' ht' =>
      obtain rfl := Option.some.inj (hids.symm.trans hids')
      obtain rfl := Except.ok.inj (hcsv.symm.trans hcsv')
      exact congrArg Option.some (Except.ok.inj (ht.symm.trans ht'))

theorem ReadsTable.isSome_eq {table : Option IdTable} (h : r.ReadsTable read table) :
    table.isSome = r.identifiers.isSome := by
  cases h with
  | none hids =>
    rw [hids]
    rfl
  | some hids =>
    rw [hids]
    rfl

/-- Whether what files hold makes generated files: the dictionary and the table that is asked for
are read, and from them the files are generated, with every check that this takes. -/
def Generates (r : Request) (read : String → Except FileFault String) (files : GeneratedFiles) : Prop :=
  ∃ text dictionary table, read r.dictionary = .ok text ∧ Dictionary.parse? text = some dictionary ∧
    r.ReadsTable read table ∧ dictionary.generate table ⟨r.usedModule, .standard⟩ = .ok files

theorem generates_iff {text : String} {d : Dictionary} {table : Option IdTable}
    (htext : read r.dictionary = .ok text) (hd : Dictionary.parse? text = some d)
    (htable : r.ReadsTable read table) :
    r.Generates read files ↔ d.generate table ⟨r.usedModule, .standard⟩ = .ok files := by
  constructor
  · rintro ⟨text', d', table', htext', hd', htable', hfiles⟩
    obtain rfl := Except.ok.inj (htext'.symm.trans htext)
    obtain rfl := Option.some.inj (hd'.symm.trans hd)
    exact htable'.unique htable ▸ hfiles
  · intro hfiles
    exact ⟨text, d, table, htext, hd, htable, hfiles⟩

theorem Generates.unique {files' : GeneratedFiles} (h : r.Generates read files)
    (h' : r.Generates read files') : files = files' := by
  obtain ⟨text, d, table, htext, hd, htable, hfiles⟩ := h
  exact Except.ok.inj (hfiles.symm.trans ((generates_iff htext hd htable).1 h'))

/-- Whether reading changes nothing; `read` is what it gives. -/
def ReadsOnly (system : FileSystem (StateM σ)) (s : σ) (read : String → Except FileFault String) : Prop :=
  ∀ path, (system.read path).run s = (read path, s)

theorem run_load (hread : ReadsOnly system s read) (path : String)
    (parse : String → Except GenerateError α) :
    (∃ text a, read path = .ok text ∧ parse text = .ok a ∧
      (load system path parse).run.run s = (.ok a, s)) ∨
    (∃ failure, (load system path parse).run.run s = (.error failure, s)) ∧
      ∀ text a, read path = .ok text → parse text ≠ .ok a := by
  rw [load, run_liftM_bind (hread path)]
  cases hfile : read path with
  | error fault => exact .inr ⟨⟨_, rfl⟩, nofun⟩
  | ok text =>
    cases hparse : parse text with
    | error error =>
      refine .inr ⟨⟨.malformed path error, ?_⟩, ?_⟩
      · simp only [hparse]
        rfl
      · rintro _ a ⟨⟩ ha
        exact absurd (hparse.symm.trans ha) nofun
    | ok a =>
      refine .inl ⟨text, a, rfl, hparse, ?_⟩
      simp only [hparse]
      rfl

theorem run_loadTable (hread : ReadsOnly system s read) (r : Request) :
    (∃ table, r.ReadsTable read table ∧ (loadTable system r).run.run s = (.ok table, s)) ∨
    (∃ failure, (loadTable system r).run.run s = (.error failure, s)) ∧
      ∀ table, ¬ r.ReadsTable read table := by
  unfold loadTable
  cases hids : r.identifiers with
  | none => exact .inl ⟨none, .none hids, rfl⟩
  | some path =>
    simp only [map_eq_pure_bind]
    rcases run_load hread path IdTable.parse with ⟨csv, t, hcsv, ht, hrun⟩ | ⟨⟨failure, hrun⟩, hnone⟩
    · exact .inl ⟨some t, .some hids hcsv ht, run_bind_of_ok hrun⟩
    · refine .inr ⟨⟨failure, run_bind_of_error hrun⟩, fun table htable => ?_⟩
      cases htable with
      | none hids' => exact absurd (hids.symm.trans hids') nofun
      | some hids' hcsv ht =>
        obtain rfl := Option.some.inj (hids.symm.trans hids')
        exact hnone _ _ hcsv ht

theorem parseDictionary_eq_ok_iff {text : String} {d : Dictionary} :
    parseDictionary text = .ok d ↔ Dictionary.parse? text = some d := by
  rw [parseDictionary]
  cases Dictionary.parse? text with
  | none => exact iff_of_false nofun nofun
  | some d' => simp

/-- A run comes to storing the files that its input makes, or fails and leaves the state as it
was. -/
theorem run_eq_or (hread : ReadsOnly system s read) (r : Request) :
    (∃ files, r.Generates read files ∧
      (r.run system).run.run s = (store system r.directory files.toList).run.run s) ∨
    (∃ failure, (r.run system).run.run s = (.error failure, s)) ∧ ∀ files, ¬ r.Generates read files := by
  unfold run
  rcases run_load hread r.dictionary parseDictionary with
    ⟨text, d, htext, hd, hrun⟩ | ⟨⟨failure, hrun⟩, hnone⟩
  · rw [run_bind_of_ok hrun]
    rw [parseDictionary_eq_ok_iff] at hd
    rcases run_loadTable hread r with ⟨table, htable, hrun⟩ | ⟨⟨failure, hrun⟩, hnone⟩
    · rw [run_bind_of_ok hrun, generateAndStore]
      cases hfiles : d.generate table ⟨r.usedModule, .standard⟩ with
      | ok files => exact .inl ⟨files, (generates_iff htext hd htable).2 hfiles, rfl⟩
      | error error =>
        refine .inr ⟨⟨_, rfl⟩, fun files h => ?_⟩
        exact absurd (hfiles.symm.trans ((generates_iff htext hd htable).1 h)) nofun
    · refine .inr ⟨⟨failure, run_bind_of_error hrun⟩, ?_⟩
      rintro files ⟨-, -, table, -, -, htable, -⟩
      exact hnone table htable
  · refine .inr ⟨⟨failure, run_bind_of_error hrun⟩, ?_⟩
    rintro files ⟨text, d, -, htext, hd, -⟩
    exact hnone text d htext (parseDictionary_eq_ok_iff.2 hd)

/-- **A run stores the files that its input makes.** -/
theorem run_of_generates (hread : ReadsOnly system s read) (h : r.Generates read files) :
    (r.run system).run.run s = (store system r.directory files.toList).run.run s := by
  rcases run_eq_or hread r with ⟨files', hfiles', hrun⟩ | ⟨-, hnone⟩
  · rwa [h.unique hfiles']
  · exact absurd h (hnone files)

/-- **A run whose input makes no files fails and leaves the state as it was.** -/
theorem run_of_not_generates (hread : ReadsOnly system s read) (h : ∀ files, ¬ r.Generates read files) :
    ∃ failure, (r.run system).run.run s = (.error failure, s) := by
  rcases run_eq_or hread r with ⟨files, hfiles, -⟩ | ⟨hfailure, -⟩
  · exact absurd hfiles (h files)
  · exact hfailure

/-- The names of the files that are generated, one of them only if a table is asked for. -/
def fileNames (r : Request) : List String :=
  ["enums_gen.rs", "extobjs_gen.rs", "register_extobjs_gen.rs", "service_gen.rs"] ++
    if r.identifiers.isSome then ["id_gen.rs"] else []

theorem isPlain_fileNames (r : Request) : ∀ name ∈ r.fileNames, Path.IsPlain name := by
  rw [fileNames]
  cases r.identifiers.isSome <;> decide

theorem nodup_fileNames (r : Request) : r.fileNames.Nodup := by
  rw [fileNames]
  cases r.identifiers.isSome <;> decide

theorem Generates.map_fst_toList (h : r.Generates read files) :
    files.toList.map Prod.fst = r.fileNames := by
  obtain ⟨text, d, table, -, -, htable, hfiles⟩ := h
  obtain ⟨enumerations, objects, identifiers, -, -, -, hidentifiers, rfl⟩ :=
    Dictionary.generate_eq_ok_iff.1 hfiles
  rw [fileNames, ← htable.isSome_eq]
  cases table with
  | none =>
    obtain rfl := Except.ok.inj hidentifiers
    rfl
  | some t =>
    obtain ⟨text, -, htext⟩ := bind_eq_ok_iff.1 hidentifiers
    obtain rfl := Except.ok.inj htext
    rfl

/-! ### Storing files -/

theorem run_write {t u : FileTree} {text : String} (h : t.write path text = .ok u) :
    (FileTree.fileSystem.write path text).run t = (.ok (), u) := by
  simp only [FileTree.fileSystem, StateT.run, h]

theorem run_writeAll {t u : FileTree} {files : List (String × String)}
    (h : t.writeAll directory files = .ok u) :
    (writeAll FileTree.fileSystem directory files).run.run t = (.ok (), u) := by
  induction files generalizing t with
  | nil =>
    obtain rfl := Except.ok.inj h
    rfl
  | cons file rest ih =>
    obtain ⟨name, text⟩ := file
    rw [FileTree.writeAll, List.foldlM_cons] at h
    obtain ⟨v, hv, hrest⟩ := bind_eq_ok_iff.1 h
    rw [writeAll, run_liftM_bind (run_write hv)]
    exact ih hrest

theorem run_store {t u v : FileTree} {files : List (String × String)}
    (hdirectory : t.createDirectories directory = (.ok (), v))
    (h : v.writeAll directory files = .ok u) :
    (store FileTree.fileSystem directory files).run.run t = (.ok (), u) := by
  have hcreate : (FileTree.fileSystem.createDirectories directory).run t = (.ok (), v) := hdirectory
  rw [store, run_liftM_bind hcreate]
  exact run_writeAll h

end Arguments.Request

namespace FileTree

/-- Whether one tree is another with files stored in a directory, which a path leads to. -/
structure Stored (t : FileTree) (directory : String) (files : List (String × String)) (place : Place)
    (u : FileTree) : Prop where
  /-- The path leads to the place. -/
  locate_eq : u.locate directory (Path.steps directory) = .ok place
  /-- There is a directory. -/
  get?_place : u.get? place = some .directory
  /-- The directory holds the files. -/
  get?_file : ∀ name text, (name, text) ∈ files → u.get? (place ++ [name]) = some (.file text)
  /-- Any other place holds what it held, or a directory instead of nothing. -/
  get?_eq_or : ∀ other, (∀ name ∈ files.map Prod.fst, other ≠ place ++ [name]) →
    u.get? other = t.get? other ∨ t.get? other = none ∧ u.get? other = some .directory

/-- **Files are stored by making the directory and writing them into it.** -/
theorem stored_of_writeAll {t u v : FileTree} {directory : String} {files : List (String × String)}
    (hplain : ∀ name ∈ files.map Prod.fst, Path.IsPlain name) (hnodup : (files.map Prod.fst).Nodup)
    (hdirectory : t.createDirectories directory = (.ok (), v))
    (h : v.writeAll directory files = .ok u) : ∃ place, t.Stored directory files place u := by
  have hmakes := makesDirectory_createDirectories t directory
  rw [hdirectory] at hmakes
  obtain ⟨hadds, hmade⟩ := hmakes
  obtain ⟨place, hlocate, hplace⟩ := isDirectory_iff.1 (hmade rfl)
  obtain ⟨hkeeps, hfiles, hothers⟩ := Receives.of_writeAll hplain hnodup hlocate h
  refine ⟨place, locate_mono hkeeps hlocate, hkeeps.get?_eq place hplace, hfiles, fun other hother => ?_⟩
  rw [hothers other hother]
  exact hadds.get?_eq_or other

end FileTree

open Arguments in
/-- **A run that fails to make files leaves nothing behind.** If the dictionary or the table that is
asked for cannot be read, or no files are generated from them, for whatever reason, then a run fails
and leaves the state as it was, on any file system where reading changes nothing. Otherwise, if the
directory can be made and the files can be written, a run succeeds. Then the directory holds the
generated files, one of them only if a table is asked for, and every other place holds what it held,
except that directories can be where nothing was. -/
theorem nothing_left_behind (r : Request) :
    (∀ {σ : Type} (system : FileSystem (StateM σ)) (s : σ) (read : String → Except FileFault String),
      Request.ReadsOnly system s read → (∀ files, ¬ r.Generates read files) →
      ∃ failure, (r.run system).run.run s = (.error failure, s)) ∧
    ∀ (t v u : FileTree) (files : GeneratedFiles), r.Generates t.read files →
      t.createDirectories r.directory = (.ok (), v) → v.writeAll r.directory files.toList = .ok u →
      (r.run FileTree.fileSystem).run.run t = (.ok (), u) ∧
      files.toList.map Prod.fst = r.fileNames ∧
      ∃ place, t.Stored r.directory files.toList place u := by
  refine ⟨fun system s read => Request.run_of_not_generates, fun t v u files hfiles hdirectory hu => ?_⟩
  have hreads : Request.ReadsOnly FileTree.fileSystem t t.read := fun _ => rfl
  have hnames := hfiles.map_fst_toList
  have hplain : ∀ name ∈ files.toList.map Prod.fst, Path.IsPlain name := hnames ▸ r.isPlain_fileNames
  have hnodup : (files.toList.map Prod.fst).Nodup := hnames ▸ r.nodup_fileNames
  refine ⟨?_, hnames, FileTree.stored_of_writeAll hplain hnodup hdirectory hu⟩
  rw [Request.run_of_generates hreads hfiles]
  exact Request.run_store hdirectory hu

/-- A dictionary without types, a table of two names with the same constant, and a directory with a
file of an earlier run. -/
def lampFiles : FileTree where
  workingDirectory := ["work"]
  entries := [(["work", "types.json"], .file "\x7b\x7d"),
    (["work", "ids.csv"], .file "LampPost,7,Object\nlamp_post,8,Object"),
    (["work", "out"], .directory), (["work", "out", "id_gen.rs"], .file "")]

/-- The files that a dictionary without types makes. -/
def filesWithoutTypes : GeneratedFiles where
  enumerations := Source.enumerationFile "m" []
  objects := Source.objectFile "m" []
  objectRegistration := Source.objectRegistrationFile "m" []
  serviceRegistration := Source.serviceRegistrationFile "m" []
  identifiers := none

/-- With the table nothing is made, although only its own file cannot be; without it everything
is. -/
theorem nothing_left_behind_lamps :
    (∃ failure, (Arguments.Request.run FileTree.fileSystem ⟨"types.json", some "ids.csv", "out", "m"⟩).run.run
      lampFiles = (.error failure, lampFiles)) ∧
    ∃ u place,
      (Arguments.Request.run FileTree.fileSystem ⟨"types.json", none, "out", "m"⟩).run.run lampFiles =
        (.ok (), u) ∧
      lampFiles.Stored "out" filesWithoutTypes.toList place u := by
  have hdictionary : lampFiles.read "types.json" = .ok "\x7b\x7d" := by decide +kernel
  have hparse : Dictionary.parse? "\x7b\x7d" = some ⟨"", [], []⟩ := by decide +kernel
  constructor
  · have hcsv : lampFiles.read "ids.csv" = .ok "LampPost,7,Object\nlamp_post,8,Object" := by
      decide +kernel
    have ht : IdTable.parse "LampPost,7,Object\nlamp_post,8,Object" =
        .ok { entries := [⟨"LampPost", 7, "Object"⟩, ⟨"lamp_post", 8, "Object"⟩] } := by decide +kernel
    have hcollision : Dictionary.generate ⟨"", [], []⟩
        (some { entries := [⟨"LampPost", 7, "Object"⟩, ⟨"lamp_post", 8, "Object"⟩] })
        ⟨"m", .standard⟩ = .error (.identifierCollision "LampPost" "lamp_post" "LAMP_POST") := by
      decide +kernel
    refine (nothing_left_behind _).1 _ _ lampFiles.read (fun _ => rfl) fun files h => ?_
    rw [Arguments.Request.generates_iff hdictionary hparse (.some rfl hcsv ht), hcollision] at h
    cases h
  · have hgenerate : Dictionary.generate ⟨"", [], []⟩ none ⟨"m", .standard⟩ = .ok filesWithoutTypes := rfl
    have hdirectory : lampFiles.createDirectories "out" = (.ok (), lampFiles) := by decide +kernel
    have hwritten : (lampFiles.writeAll "out" filesWithoutTypes.toList).toOption.isSome = true := by
      decide +kernel
    cases hu : lampFiles.writeAll "out" filesWithoutTypes.toList with
    | error fault => exact absurd (hu ▸ hwritten) nofun
    | ok u =>
      obtain ⟨hrun, -, place, hstored⟩ := (nothing_left_behind ⟨"types.json", none, "out", "m"⟩).2
        lampFiles lampFiles u filesWithoutTypes ⟨_, _, none, hdictionary, hparse, .none rfl, hgenerate⟩
        hdirectory hu
      exact ⟨u, place, hrun, hstored⟩

end OpcWire
