import SurrealZod.Proofs.Disk.Folders

/-! Folders that a disk refuses to make. A refusal comes from a file that is in the way, or from a name or a path that
no disk takes, and neither goes away by the folders that were made before it. So a second attempt is refused, too. The
cause is another one if a file was found only behind a step up from a folder that the first attempt has made. -/

namespace SurrealZod

namespace Store

open Location Disk

variable {store after : Store} {here : Location} {path : Path} {parts more : List Text} {cause : DiskError}

/-! ### Walks that fail -/

theorem foldlM_step_append (store : Store) (here : Location) (parts more : List Text) :
    (parts ++ more).foldlM store.step here =
      match parts.foldlM store.step here with
      | .ok there => more.foldlM store.step there
      | .error cause => .error cause := by
  rw [List.foldlM_append]
  cases parts.foldlM store.step here <;> rfl

theorem makeFolder_of_locate_error (h : store.locate path = .error cause) : store.makeFolder path = .error cause := by
  unfold makeFolder
  rw [h]
  rfl

theorem isFolder_iff :
    store.isFolder path = true ↔
      store.locate path = .ok path.location ∧ store.kind? path.location = some .folder := by
  cases hlocate : store.locate path with
  | error cause =>
      have hfalse : store.isFolder path = false := by
        unfold isFolder lookup
        rw [hlocate]
        rfl
      rw [hfalse]
      exact ⟨fun h => (by cases h), fun h => (by cases h.1)⟩
  | ok there =>
      obtain ⟨rfl, -⟩ := locate_eq_ok hlocate
      rw [isFolder_of_locate hlocate]
      exact ⟨fun h => ⟨rfl, h⟩, fun h => h.2⟩

/-! ### Refusals -/

/-- Whether a disk refuses to make a folder that is not there, and not for want of one above it. -/
structure Refuses (store : Store) (path : Path) (cause : DiskError) : Prop where
  makeFolder_eq : store.makeFolder path = .error cause
  ne_notFound : cause ≠ .notFound
  not_isFolder : store.isFolder path = false

/-- A disk that refuses a folder has no way to it, or a file stands there. -/
theorem Refuses.locate (h : store.Refuses path cause) :
    store.locate path = .error cause ∨
      cause = .alreadyExists ∧ store.locate path = .ok path.location ∧
        ∃ content, store.kind? path.location = some (.file content) := by
  cases hlocate : store.locate path with
  | error other =>
      have hmake := makeFolder_of_locate_error hlocate
      rw [h.makeFolder_eq] at hmake
      cases hmake
      exact Or.inl rfl
  | ok there =>
      obtain ⟨rfl, -⟩ := locate_eq_ok hlocate
      have hmake := makeFolder_of_locate hlocate
      rw [h.makeFolder_eq] at hmake
      have hfolder := h.not_isFolder
      rcases hkind : store.kind? path.location with _ | _ | content
      · rw [hkind] at hmake
        cases hmake
      · rw [isFolder_iff.mpr ⟨hlocate, hkind⟩] at hfolder
        cases hfolder
      · rw [hkind] at hmake
        cases hmake
        exact Or.inr ⟨rfl, rfl, content, rfl⟩

variable {above : ExceptT DiskError (StateM Store) Unit} {result : Except DiskError Unit}

/-- A refusal is final: nothing is made, neither the folder nor those above it. -/
theorem Refuses.exec_makeFolderIn (h : store.Refuses path cause) (above : ExceptT DiskError (StateM Store) Unit) :
    exec (makeFolderIn above path) store = (.error cause, store) := by
  unfold makeFolderIn
  rw [exec_tryCatch, exec_makeFolder, h.makeFolder_eq]
  dsimp only
  split
  · exact absurd rfl h.ne_notFound
  · rw [exec_acceptFolder, h.not_isFolder]
    rfl

theorem Refuses.exec_makeFolders (h : store.Refuses path cause) :
    exec (makeFolders path) store = (.error cause, store) :=
  h.exec_makeFolderIn _

/-! ### What comes of making folders -/

instance (part : Text) : Decidable (Fits part) := inferInstanceAs (Decidable (_ ∨ _ ∨ _))

/-- Whether the way along some parts fails, though not for want of a folder, or leads to a file. -/
def Stuck (store : Store) (parts : List Text) (cause : DiskError) : Prop :=
  cause ≠ .notFound ∧ parts.foldlM store.step [] = .error cause ∨
    cause = .alreadyExists ∧ ∃ front there content, front <+: parts ∧ front.foldlM store.step [] = .ok there ∧
      store.kind? there = some (.file content)

theorem Stuck.append (h : store.Stuck parts cause) (more : List Text) : store.Stuck (parts ++ more) cause := by
  rcases h with ⟨hne, hwalk⟩ | ⟨hcause, front, there, content, hfront, hwalk, hfile⟩
  · refine Or.inl ⟨hne, ?_⟩
    rw [foldlM_step_append, hwalk]
  · exact Or.inr ⟨hcause, front, there, content, hfront.trans (List.prefix_append _ _), hwalk, hfile⟩

variable {base : List Text} {name : Text}

end Store

end SurrealZod
