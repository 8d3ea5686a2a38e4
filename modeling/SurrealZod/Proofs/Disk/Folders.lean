import Mathlib.Data.List.Induction
import SurrealZod.Proofs.Disk.Programs

/-! Making folders. A disk that takes a path, with no file in the way, makes sure of all folders on the path: the
only refusals on the way are that a folder is not there yet, or that it is there already. -/

namespace SurrealZod

namespace Store

open Location Disk

/-- Whether a disk takes some parts of a path, and no file is in the way. -/
def Clear (store : Store) : Location → List Text → Prop
  | here, [] => ∀ content, store.kind? here ≠ some (.file content)
  | here, part :: rest =>
    (∀ content, store.kind? here ≠ some (.file content)) ∧ Fits part ∧ Clear store (go here part) rest

variable {store after : Store} {here : Location} {path : Path} {parts more : List Text}

/-! ### Clear ways -/

theorem Clear.start (h : store.Clear here parts) (content : Content) :
    store.kind? here ≠ some (.file content) := by
  cases parts with
  | nil => exact h content
  | cons => exact h.1 content

theorem ne_file_of_folder (h : store.kind? here = some .folder) (content : Content) :
    store.kind? here ≠ some (.file content) := by
  simp [h]

theorem Leads.clear (h : store.Leads here parts) : store.Clear here parts := by
  induction parts generalizing here with
  | nil => exact ne_file_of_folder h
  | cons part rest ih => exact ⟨ne_file_of_folder h.1, h.2.1, ih h.2.2⟩

theorem clear_append :
    store.Clear here (parts ++ more) ↔ store.Clear here parts ∧ store.Clear (parts.foldl go here) more := by
  induction parts generalizing here with
  | nil => exact ⟨fun h => ⟨h.start, h⟩, fun h => h.2⟩
  | cons part rest ih =>
      rw [List.cons_append, Clear, Clear, ih, List.foldl_cons]
      exact ⟨fun ⟨hhere, hfits, hrest, hmore⟩ => ⟨⟨hhere, hfits, hrest⟩, hmore⟩,
        fun ⟨⟨hhere, hfits, hrest⟩, hmore⟩ => ⟨hhere, hfits, hrest, hmore⟩⟩

theorem Clear.filter (h : store.Clear here parts) : store.Clear here (parts.filter (· ≠ ['.'])) := by
  induction parts generalizing here with
  | nil => exact h
  | cons part rest ih =>
      by_cases hdot : part = ['.']
      · subst hdot
        rw [List.filter_cons_of_neg (by decide)]
        exact ih h.2.2
      · rw [List.filter_cons_of_pos (by simpa using hdot)]
        exact ⟨h.1, h.2.1, ih h.2.2⟩

/-- A way stays clear if there are no new files. -/
theorem Clear.mono (h : store.Clear here parts)
    (hfile : ∀ {other content}, after.kind? other = some (.file content) → store.kind? other = some (.file content)) :
    after.Clear here parts := by
  induction parts generalizing here with
  | nil => exact fun content hcontent => h content (hfile hcontent)
  | cons part rest ih => exact ⟨fun content hcontent => h.1 content (hfile hcontent), h.2.1, ih h.2.2⟩

theorem foldlM_step_of_clear (h : store.Clear here parts) :
    parts.foldlM store.step here = .error .notFound ∨ parts.foldlM store.step here = .ok (parts.foldl go here) := by
  induction parts generalizing here with
  | nil => exact Or.inr rfl
  | cons part rest ih =>
      rw [List.foldlM_cons, List.foldl_cons]
      cases hkind : store.kind? here with
      | none =>
          have hstep : store.step here part = .error .notFound := by rw [step, hkind]
          exact Or.inl (by rw [hstep]; rfl)
      | some kind =>
          cases kind with
          | file content => exact absurd hkind (h.1 content)
          | folder =>
              rw [step_eq_ok_iff.mpr ⟨hkind, h.2.1, rfl⟩]
              exact ih h.2.2

theorem locate_of_clear (hcheck : path.check = .ok ()) (h : store.Clear [] path.parts) :
    store.locate path = .error .notFound ∨ store.locate path = .ok path.location := by
  unfold locate
  rw [hcheck]
  exact foldlM_step_of_clear h

/-! ### Making folders -/

theorem isFolder_of_locate (hlocate : store.locate path = .ok path.location) :
    store.isFolder path = true ↔ store.kind? path.location = some .folder := by
  rw [isFolder, lookup_of_locate hlocate]
  rcases store.kind? path.location with _ | _ | _
  · simp
  · simp
  · cases path.endsInSlash <;> simp

theorem exec_tryCatch_makeFolder {handler : DiskError → ExceptT DiskError (StateM Store) Unit}
    (hlocate : store.locate path = .ok path.location)
    (hfree : ∀ content, store.kind? path.location ≠ some (.file content))
    (hhandler : handler .alreadyExists = acceptFolder path .alreadyExists) :
    ∃ after, exec (tryCatch (MonadDisk.makeFolder path) handler) store = (.ok (), after) ∧
      store.Grown after ∧ after.kind? path.location = some .folder := by
  have hmake := makeFolder_of_locate hlocate
  rw [exec_tryCatch, exec_makeFolder, hmake]
  cases hkind : store.kind? path.location with
  | none =>
      rw [hkind] at hmake
      refine ⟨_, rfl, grown_makeFolder hmake, ?_⟩
      rw [kind?_put_folder hlocate hkind, if_pos rfl]
  | some kind =>
      cases kind with
      | file content => exact absurd hkind (hfree content)
      | folder =>
          refine ⟨store, ?_, Grown.refl store, hkind⟩
          show exec (handler .alreadyExists) store = _
          rw [hhandler]
          rw [exec_acceptFolder, if_pos ((isFolder_of_locate hlocate).mpr hkind)]

theorem exec_makeFolderIn {above : ExceptT DiskError (StateM Store) Unit} {init : List Text} {part : Text}
    {reached : Store} (hparts : path.parts = init ++ [part]) (hcheck : path.check = .ok ())
    (hclear : store.Clear [] path.parts) (habove : exec above store = (.ok (), reached)) (hgrown : store.Grown reached)
    (hleads : reached.Leads [] init) :
    ∃ after, exec (makeFolderIn above path) store = (.ok (), after) ∧
      store.Grown after ∧ after.Leads [] path.parts := by
  have hfree := (clear_append.mp (hparts ▸ hclear)).2
  have hlocation : path.location = go (init.foldl go []) part := by
    rw [Path.location, hparts, List.foldl_append]
    rfl
  have hway : ∀ {before last : Store}, before.Leads [] init → before.Grown last →
      last.kind? path.location = some .folder → last.Leads [] path.parts := by
    intro before last hbefore hlast hfolder
    have hinit := hbefore.mono hlast.kind?
    rw [hparts, leads_append]
    exact ⟨hinit, hinit.target, hfree.2.1, hlocation ▸ hfolder⟩
  rcases locate_of_clear hcheck hclear with hlocate | hlocate
  · -- The folder above is not there, so it is made first.
    have hreached := (locate_eq_ok_iff hparts).mpr ⟨hcheck, hleads, hfree.2.1, rfl⟩
    have hstill : ∀ content, reached.kind? path.location ≠ some (.file content) := by
      intro content
      rcases hgrown path.location with heq | ⟨-, hfolder⟩
      · rw [heq, hlocation]
        exact hfree.2.2 content
      · exact ne_file_of_folder hfolder content
    obtain ⟨after, hexec, hafter, hfolder⟩ := exec_tryCatch_makeFolder hreached hstill rfl
    refine ⟨after, ?_, hgrown.trans hafter, hway hleads hafter hfolder⟩
    have hrefused : exec (MonadDisk.makeFolder (m := StateM Store) path) store = (.error .notFound, store) := by
      have hmake : store.makeFolder path = .error .notFound := by
        unfold makeFolder
        rw [hlocate]
        rfl
      rw [exec_makeFolder, hmake]
    unfold makeFolderIn
    rw [exec_tryCatch, hrefused]
    show exec (above >>= fun _ => tryCatch (MonadDisk.makeFolder path) (acceptFolder path)) store = _
    rw [exec_bind, habove]
    exact hexec
  · have hfirst : ∀ content, store.kind? path.location ≠ some (.file content) := hlocation ▸ hfree.2.2
    have hmade : ∃ after, exec (makeFolderIn above path) store = (.ok (), after) ∧
        store.Grown after ∧ after.kind? path.location = some .folder :=
      exec_tryCatch_makeFolder hlocate hfirst rfl
    obtain ⟨after, hexec, hafter, hfolder⟩ := hmade
    exact ⟨after, hexec, hafter, hway ((locate_eq_ok_iff hparts).mp hlocate).2.1 hafter hfolder⟩

theorem exec_makeFoldersOf {steps : List Text} (hsteps : steps.Sublist path.parts) (hcheck : path.check = .ok ())
    (hclear : store.Clear [] steps) :
    ∃ after, exec (makeFoldersOf (m := StateM Store) path.isAbsolute steps.reverse) store = (.ok (), after) ∧
      store.Grown after ∧ after.Leads [] steps := by
  induction steps using List.reverseRecOn with
  | nil => exact ⟨store, rfl, Grown.refl store, kind?_root store⟩
  | append_singleton above name ih =>
      have hparts : (Path.ofParts path.isAbsolute (above ++ [name])).parts = above ++ [name] :=
        Path.parts_ofParts _ fun part hpart => Path.of_mem_parts (hsteps.subset hpart)
      obtain ⟨reached, hexec, hgrown, hleads⟩ :=
        ih ((List.sublist_append_left _ _).trans hsteps) (clear_append.mp hclear).1
      have hmade :=
        exec_makeFolderIn hparts (Path.check_ofParts hcheck hsteps) (hparts.symm ▸ hclear) hexec hgrown hleads
      rw [hparts] at hmade
      rw [List.reverse_concat, makeFoldersOf, List.reverse_cons, List.reverse_reverse]
      exact hmade

theorem dropLast_steps {base : List Text} {name : Text} (hparts : path.parts = base ++ [name])
    (hname : Path.IsEntryName name) : path.steps.dropLast = base.filter (· ≠ ['.']) := by
  rw [Path.steps, hparts, List.filter_append, List.filter_cons_of_pos (by simpa using hname.ne_here), List.filter_nil,
    List.dropLast_concat]

/-- A disk makes sure of a folder, and of those above it, on a clear way. -/
theorem exec_makeFolders {base : List Text} {name : Text} (hparts : path.parts = base ++ [name])
    (hname : Path.IsEntryName name) (hcheck : path.check = .ok ()) (hclear : store.Clear [] path.parts) :
    ∃ after, exec (makeFolders (m := StateM Store) path) store = (.ok (), after) ∧
      store.Grown after ∧ after.Leads [] path.parts := by
  have hbase : base.Sublist path.parts := hparts ▸ List.sublist_append_left _ _
  obtain ⟨reached, hexec, hgrown, hleads⟩ :=
    exec_makeFoldersOf (List.filter_sublist.trans hbase) hcheck (clear_append.mp (hparts ▸ hclear)).1.filter
  rw [← dropLast_steps hparts hname] at hexec
  exact exec_makeFolderIn hparts hcheck hclear hexec hgrown (leads_of_filter hleads)

end Store

end SurrealZod
