import SdlTypes.FileTree.Archive
import SdlTypes.Proofs.Paths
import SdlTypes.Proofs.Results
import SdlTypes.Proofs.Steps

/-!
# What operations on files change

Directories are only made on the way that names lead, and a file only at its end
(`FileTree.moves_makeDirectories`, `FileTree.createFile_cases`). So an archive changes nothing
outside the place where it is unpacked (`FileTree.moves_unpack`), and besides a written file there
are only the directories new that were missing above it (`FileTree.written_of_write`).
-/

namespace SdlTypes.FileTree

/-! ## Single entries -/

/-- Names are followed to the place to which they lead. -/
theorem eq_of_follow {t : FileTree} {p q : Path} {names : List String}
    (h : t.follow p names = .ok q) : q = names.foldl Path.step p := by
  induction names generalizing p with
  | nil => exact (Except.ok.inj h).symm
  | cons name rest ih =>
    rw [follow] at h
    split_ifs at h
    exact ih h

theorem eq_of_target {t : FileTree} {p q : Path} {names : List String}
    (h : t.target p names = .ok q) : q = names.foldl Path.step p := by
  obtain ⟨-, -, hrest⟩ := exists_of_bind h
  obtain ⟨above, habove, hlast⟩ := exists_of_bind hrest
  have hplace := eq_of_follow habove
  rcases names.eq_nil_or_concat with rfl | ⟨front, name, rfl⟩
  · exact (Except.ok.inj hlast).symm.trans hplace
  · rw [List.concat_eq_append] at hlast hplace ⊢
    rw [List.getLast?_concat] at hlast
    dsimp only at hlast
    split_ifs at hlast
    rw [List.foldl_concat, ← Except.ok.inj hlast, hplace, List.dropLast_concat]

/-- Making a directory fails and changes nothing, or there was nothing where it is made. -/
theorem makeDirectory_cases (p : Path) (names : List String) (t : FileTree) :
    (∃ obstacle, (makeDirectory p names).run.run t = (.error obstacle, t)) ∨
      t.find? (names.foldl Path.step p) = none ∧
        (makeDirectory p names).run.run t =
          (.ok (), t.insert (names.foldl Path.step p) .directory) := by
  simp only [makeDirectory, run_bind, run_get, run_lift]
  rcases h : t.target p names with obstacle | place
  · exact .inl ⟨obstacle, rfl⟩
  · rw [← eq_of_target h]
    dsimp only
    cases hplace : t.find? place with
    | some e => exact .inl ⟨.occupied, rfl⟩
    | none => exact .inr ⟨rfl, rfl⟩

/-- Writing a file fails and changes nothing, or there was no directory where it is written; then
only a device is as it was. -/
theorem createFile_cases (p : Path) (names : List String) (written : String) (file : Entry)
    (t : FileTree) :
    (∃ obstacle, (createFile p names written file).run.run t = (.error obstacle, t)) ∨
      t.find? (names.foldl Path.step p) ≠ some .directory ∧
        (createFile p names written file).run.run t =
          (.ok (), if t.find? (names.foldl Path.step p) = some .device then t
            else t.insert (names.foldl Path.step p) file) := by
  simp only [createFile, run_bind, run_lift]
  rcases checkNames names with obstacle | -
  · exact .inl ⟨obstacle, rfl⟩
  dsimp only
  by_cases hlong : Path.isTooLong written
  · rw [if_pos hlong]
    exact .inl ⟨.tooLong, rfl⟩
  simp only [if_neg hlong, run_bind, run_get, run_lift]
  rcases h : t.target p names with obstacle | place
  · exact .inl ⟨obstacle, rfl⟩
  · rw [← eq_of_target h]
    dsimp only
    rcases hplace : t.find? place with _ | e
    · exact .inr ⟨nofun, rfl⟩
    · cases e with
      | directory => exact .inl ⟨.directory, rfl⟩
      | device => exact .inr ⟨nofun, rfl⟩
      | file | binary | archive => exact .inr ⟨nofun, rfl⟩

/-! ## Directories on the way -/

/-- Names are followed as far as to some place on their way. -/
theorem exists_of_followFar {t : FileTree} {p q : Path} {names missing : List String}
    (h : t.followFar p names = (q, missing)) :
    ∃ front, names = front ++ missing ∧ q = front.foldl Path.step p := by
  induction names generalizing p with
  | nil =>
    cases h
    exact ⟨[], rfl, rfl⟩
  | cons name rest ih =>
    rw [followFar] at h
    split_ifs at h
    · obtain ⟨front, rfl, rfl⟩ := ih h
      exact ⟨name :: front, rfl, rfl⟩
    · cases h
      exact ⟨[], rfl, rfl⟩

section

variable {R : FileTree → FileTree → Prop} [IsPreorder FileTree R] {p : Path} {names : List String}

theorem moves_makeDirectory
    (h : ∀ t, t.find? (names.foldl Path.step p) = none →
      R t (t.insert (names.foldl Path.step p) .directory)) :
    Moves R (makeDirectory p names) := fun t => by
  rcases makeDirectory_cases p names t with ⟨obstacle, hrun⟩ | ⟨hnone, hrun⟩
  · exact hrun ▸ refl_of R t
  · exact hrun ▸ h t hnone

theorem moves_makeChain (mayExist goesOn : Bool)
    (h : ∀ q ∈ Path.way p names, ∀ t, t.find? q = none → R t (t.insert q .directory)) :
    Moves R (makeChain mayExist goesOn p names) := by
  induction names generalizing p with
  | nil => exact Moves.pure ()
  | cons name rest ih =>
    obtain ⟨hname, hrest⟩ := List.forall_mem_cons.1 h
    have hmake : Moves R (makeDirectory p [name]) := moves_makeDirectory hname
    rw [makeChain]
    refine Moves.ite (fun _ => Moves.bind ?_ fun _ => ih hrest) fun _ => ih hrest
    refine Moves.tryCatch hmake fun obstacle => ?_
    exact Moves.get.bind fun t => Moves.ite (fun _ => Moves.throw obstacle) fun _ => Moves.pure ()

/-- Directories are only made on the way, where there is nothing. -/
theorem moves_makeDirectories (mayExist : Bool)
    (h : ∀ q ∈ Path.way p names, ∀ t, t.find? q = none → R t (t.insert q .directory)) :
    Moves R (makeDirectories mayExist p names) := by
  rcases hsplit : Path.splitAtLimit 0 names with ⟨within, beyond⟩
  have hnames : within ++ beyond = names := by
    rw [← Path.append_splitAtLimit 0 names, hsplit]
  rw [makeDirectories, hsplit]
  refine Moves.get.bind fun t => ?_
  rcases hfar : t.followFar p within with ⟨place, missing⟩
  obtain ⟨front, rfl, rfl⟩ := exists_of_followFar hfar
  have hmissing : ∀ q ∈ Path.way (front.foldl Path.step p) missing, ∀ t, t.find? q = none →
      R t (t.insert q .directory) := by
    intro q hq
    refine h q ?_
    rw [← hnames, Path.way_append, Path.way_append]
    exact List.mem_append_left _ (List.mem_append_right _ hq)
  have hchain : Moves R (makeChain mayExist (!beyond.isEmpty) (front.foldl Path.step p) missing) :=
    moves_makeChain mayExist _ hmissing
  refine Moves.ite (fun _ => Moves.throw_bind _ _) fun _ => Moves.get.bind fun _ => ?_
  refine Moves.ite (fun _ => Moves.throw_bind _ _) fun _ => hchain.bind fun _ => ?_
  exact Moves.ite (fun _ => Moves.throw _) fun _ => Moves.pure ()

theorem moves_createFile {written : String} {file : Entry}
    (h : ∀ t, t.find? (names.foldl Path.step p) ≠ some .directory →
      R t (t.insert (names.foldl Path.step p) file)) :
    Moves R (createFile p names written file) := fun t => by
  rcases createFile_cases p names written file t with ⟨obstacle, hrun⟩ | ⟨hplace, hrun⟩
  · exact hrun ▸ refl_of R t
  · rw [hrun]
    dsimp only
    split_ifs
    · exact refl_of R t
    · exact h t hplace

theorem moves_ensure
    (h : ∀ q ∈ Path.way p names, ∀ t, t.find? q = none → R t (t.insert q .directory)) :
    Moves R (ensure p names) :=
  Moves.get.bind fun _ => Moves.ite (fun _ => moves_makeDirectories false h) fun _ => Moves.pure _

end

/-! ## Unpacking -/

/-- Whether two trees are the same but for a place and what is below it. -/
def SameOutside (p : Path) (t t' : FileTree) : Prop :=
  t'.removeBelow p = t.removeBelow p

instance (p : Path) : IsPreorder FileTree (SameOutside p) where
  refl _ := rfl
  trans _ _ _ h h' := h'.trans h

theorem sameOutside_insert {p q : Path} (h : p <+: q) (t : FileTree) (e : Entry) :
    SameOutside p t (t.insert q e) := by
  rw [SameOutside, removeBelow, removeBelow, insert, List.filter_cons_of_neg (by simpa using h),
    List.filter_filter]
  congr 1
  refine List.filter_congr fun x _ => ?_
  by_cases hx : x.1 = q
  · simp [hx, h]
  · simp [hx]

/-- The places that a member of a tar archive leads through. -/
def memberWay (directory : Path) (written : String) : List Path :=
  let path := String.ofList (Text.dropEndWhile (· = '/') written.toList)
  Path.start directory path ::
    Path.way (Path.start directory path) ((Text.split '/' path).filter (· ≠ ""))

/-- Whether the paths of the members of an archive lead only through places inside the directory
where it is unpacked. Those of a zip archive always do. -/
def StaysInside (form : ArchiveForm) (directory : Path) : Entry → Prop
  | .archive members =>
    form = .tar → ∀ m ∈ members, ∀ q ∈ memberWay directory (form.kept m.1), directory <+: q
  | _ => True

instance (form : ArchiveForm) (directory : Path) (e : Entry) :
    Decidable (StaysInside form directory e) :=
  match e with
  | .archive members => inferInstanceAs (Decidable (form = .tar → ∀ m ∈ members,
      ∀ q ∈ memberWay directory (form.kept m.1), directory <+: q))
  | .directory | .file _ | .binary _ | .device => inferInstanceAs (Decidable True)

section

variable {directory : Path}

theorem moves_unpackTarMember {written : String} (text : String)
    (h : ∀ q ∈ memberWay directory written, directory <+: q) :
    Moves (SameOutside directory) (unpackTarMember directory written text) := by
  rw [unpackTarMember]
  rw [memberWay] at h
  generalize String.ofList (Text.dropEndWhile (· = '/') written.toList) = path at h ⊢
  generalize Path.start directory path = p at h ⊢
  generalize (Text.split '/' path).filter (· ≠ "") = names at h ⊢
  refine Moves.ite (fun _ => Moves.throw_bind _ _) fun _ => Moves.bind ?_ fun _ => ?_
  · refine moves_ensure fun q hq t _ => sameOutside_insert (h q ?_) t _
    exact List.mem_cons_of_mem p ((Path.way_prefix p (List.dropLast_prefix names)).subset hq)
  · exact moves_createFile fun t _ => sameOutside_insert (h _ (Path.foldl_step_mem p names)) t _

/-- The names of a member of a zip archive, without dots. -/
def memberNames (name : String) : List String :=
  (Path.names name).filter fun name => name ≠ "." && name ≠ ".."

theorem memberNames_dots {member name : String} (h : name ∈ memberNames member) :
    name ≠ "." ∧ name ≠ ".." := by
  simpa using (List.mem_filter.1 h).2

theorem prefix_of_mem_way {names : List String} (h : ∀ name ∈ names, name ≠ "." ∧ name ≠ "..")
    {q : Path} (hq : q ∈ directory :: Path.way directory names) : directory <+: q := by
  rcases List.mem_cons.1 hq with rfl | hq
  · exact List.prefix_rfl
  · obtain ⟨front, -, rfl⟩ := Path.exists_of_mem_way h hq
    exact List.prefix_append ..

theorem moves_prepare (name : String) :
    Moves (SameOutside directory) (prepare directory name) := by
  have hway (q : Path) (hq : q ∈ directory :: Path.way directory (memberNames name)) :
      directory <+: q := prefix_of_mem_way (fun _ => memberNames_dots) hq
  refine Moves.bind (moves_ensure fun q hq t _ => sameOutside_insert (hway q ?_) t _) fun _ => ?_
  · exact List.mem_cons_of_mem _ ((Path.way_prefix directory (List.dropLast_prefix _)).subset hq)
  have hmake : Moves (SameOutside directory) (makeDirectory directory (memberNames name)) :=
    moves_makeDirectory fun t _ =>
      sameOutside_insert (hway _ (Path.foldl_step_mem directory _)) t _
  refine Moves.ite (fun _ => Moves.get.bind fun _ => ?_) fun _ => Moves.pure _
  exact Moves.ite (fun _ => hmake.bind fun _ => Moves.pure none) fun _ => Moves.pure none

/-- A file is left to be written under the names of the member. -/
theorem returns_prepare (name : String) :
    Returns (fun names => ∀ l ∈ names, l = memberNames name) (prepare directory name) := by
  refine Returns.bind fun _ => Returns.ite (Returns.bind fun _ => ?_) ?_
  · exact Returns.ite (Returns.bind fun _ => Returns.pure nofun) (Returns.pure nofun)
  · exact Returns.pure fun l hl => (Option.some.inj hl).symm

theorem moves_createMember (name : String) (file : Entry) :
    Moves (SameOutside directory) (createMember directory (memberNames name) file) :=
  moves_createFile fun t _ =>
    sameOutside_insert
      (prefix_of_mem_way (fun _ => memberNames_dots) (Path.foldl_step_mem directory _)) t _

theorem moves_unpackZipMember (name text : String) :
    Moves (SameOutside directory) (unpackZipMember directory name text) := by
  refine (moves_prepare name).bindReturns (returns_prepare name) fun names hnames => ?_
  cases names with
  | none => exact Moves.pure ()
  | some names =>
    cases hnames names rfl
    exact moves_createMember name _

theorem moves_extractZipMember (s : ByteArray) (m : Zip.Member) (limit : Int) :
    Moves (SameOutside directory) (extractZipMember s directory m limit) := by
  refine ((moves_prepare m.name).adapt _).bindReturns ((returns_prepare m.name).adapt _)
    fun names hnames => ?_
  cases names with
  | none => exact Moves.pure ()
  | some names =>
    cases hnames names rfl
    refine (Moves.lift _).bind fun packed =>
      ((moves_createMember m.name _).adapt _).bind fun _ => ?_
    exact (Moves.lift _).bind fun data => (moves_createMember m.name _).adapt _

theorem moves_extractZip (s : ByteArray) : Moves (SameOutside directory) (extractZip s directory) :=
  (Moves.lift _).bind fun _ => Moves.forM fun (m, limit) _ => moves_extractZipMember s m limit

/-- Unpacking an archive whose members stay inside changes nothing outside. -/
theorem moves_unpack {form : ArchiveForm} {archive : Entry}
    (h : StaysInside form directory archive) :
    Moves (SameOutside directory) (unpack form directory archive) := by
  cases archive with
  | archive members =>
    cases form with
    | zip => exact Moves.forM fun m _ => (moves_unpackZipMember _ m.2).adapt _
    | tar => exact Moves.forM fun m hm => (moves_unpackTarMember m.2 (h rfl m hm)).adapt _
  | directory | file | binary | device =>
    cases form with
    | zip => exact moves_extractZip _
    | tar => exact Moves.throw _

end

/-! ## Writing -/

/-- Whether the second tree is the first one with new directories above a place. -/
def Gains (place : Path) (t t' : FileTree) : Prop :=
  ∀ q, t'.find? q = t.find? q ∨
    (q <+: place ∧ q ≠ place) ∧ t.find? q = none ∧ t'.find? q = some .directory

instance (place : Path) : IsPreorder FileTree (Gains place) where
  refl _ _ := .inl rfl
  trans t u t' h h' q := by
    rcases h q with h | ⟨habove, hnone, hmade⟩
    · exact h ▸ h' q
    · rcases h' q with h' | ⟨-, hnone', -⟩
      · exact .inr ⟨habove, hnone, h'.trans hmade⟩
      · rw [hmade] at hnone'
        cases hnone'

theorem gains_insert {place q : Path} (h : q <+: place) (hne : q ≠ place) {t : FileTree}
    (hnone : t.find? q = none) : Gains place t (t.insert q .directory) := by
  have hq : q ≠ [] := by
    rintro rfl
    cases hnone
  intro r
  rw [find?_insert t .directory hq]
  split_ifs with hr
  · exact .inr ⟨hr ▸ ⟨h, hne⟩, hr ▸ hnone, rfl⟩
  · exact .inl rfl

/-- What has changed when a text has been written at a place. The place holds the text, except that
a device keeps nothing, and new are only directories that were missing above it. -/
structure Written (t t' : FileTree) (place : Path) (text : String) : Prop where
  holds : t'.find? place = some (if t.find? place = some .device then .device else .file text)
  others : ∀ q ≠ place, t'.find? q = t.find? q ∨
    q <+: place ∧ t.find? q = none ∧ t'.find? q = some .directory

theorem Gains.written {place : Path} {t u : FileTree} (h : Gains place t u)
    (hplace : u.find? place ≠ some .directory) (text : String) :
    Written t (if u.find? place = some .device then u else u.insert place (.file text)) place
      text := by
  have hsame : u.find? place = t.find? place := (h place).resolve_right fun h => h.1.2 rfl
  have hne : place ≠ [] := by
    rintro rfl
    exact hplace rfl
  rw [hsame]
  split_ifs with hdevice
  · refine ⟨by rw [if_pos hdevice, hsame, hdevice], fun q _ => ?_⟩
    exact (h q).imp_right fun h => ⟨h.1.1, h.2⟩
  · refine ⟨by rw [if_neg hdevice, find?_insert u _ hne, if_pos rfl], fun q hq => ?_⟩
    rw [find?_insert u _ hne, if_neg hq]
    exact (h q).imp_right fun h => ⟨h.1.1, h.2⟩

theorem written_of_createFile {p place : Path} {names : List String} {written text : String}
    {t u t' : FileTree} (hnames : names.foldl Path.step p = place) (hgains : Gains place t u)
    (h : (createFile p names written (.file text)).run.run u = (.ok (), t')) :
    Written t t' place text := by
  subst hnames
  rcases createFile_cases p names written (.file text) u with ⟨_, hrun⟩ | ⟨hplace, hrun⟩
  · rw [hrun] at h
    cases h
  · rw [hrun] at h
    cases h
    exact hgains.written hplace text

/-- A text that has been written stands at its place, and besides there are only directories new. -/
theorem written_of_write {directory place : Path} {text : String} {t t' : FileTree}
    (hproper : place.IsProper) (h : (write directory place.text text).run.run t = (.ok (), t')) :
    Written t t' place text := by
  have hstart : Path.start directory place.text = [] := by
    rw [Path.start, Path.text, Text.startsWith, String.toList_append]
    rfl
  rw [write, hstart] at h
  dsimp only at h
  rcases eq_or_ne place [] with rfl | hne
  · -- the path of the root leads to a directory
    exact written_of_createFile rfl (refl_of _ t) h
  rw [Path.names_text hproper hne] at h
  have hdots (name : String) (hname : name ∈ place) : name ≠ "." ∧ name ≠ ".." :=
    ⟨(hproper name hname).2.1, (hproper name hname).2.2.1⟩
  have hlead : place.foldl Path.step [] = place := Path.foldl_step_eq hdots
  by_cases hempty : place.text = ""
  · rw [if_pos hempty] at h
    cases h
  rw [if_neg hempty] at h
  split_ifs at h
  · obtain ⟨_, u, hrun, hrest⟩ := exists_of_run_bind h
    have hmake : Moves (Gains place) (makeDirectories true [] place.dropLast) := by
      refine moves_makeDirectories true fun q hq u hnone => ?_
      obtain ⟨front, hfront, rfl⟩ := Path.exists_of_mem_way
        (fun name hname => hdots name (List.dropLast_subset place hname)) hq
      refine gains_insert (hfront.trans (List.dropLast_prefix place)) (fun heq => ?_) hnone
      have hlength := heq ▸ hfront.length_le
      have := List.length_pos_of_ne_nil hne
      rw [List.length_dropLast] at hlength
      omega
    have hgains := hmake t
    rw [hrun] at hgains
    exact written_of_createFile hlead hgains hrest
  · exact written_of_createFile hlead (refl_of _ t) h

end SdlTypes.FileTree
