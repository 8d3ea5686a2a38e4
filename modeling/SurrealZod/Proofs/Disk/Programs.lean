import SurrealZod.Proofs.Disk.Walks

/-! Programs on a store: what an operation changes, and what a program keeps that only writes files and makes
folders. Such a program loses no folder, and a file only by writing it. -/

namespace SurrealZod

namespace Store

variable {store after : Store} {path : Path}

/-! ### Operations -/

/-- Below what is no folder, nothing is. -/
theorem kind?_below_eq_none {location : Location} (hkind : store.kind? location ≠ some .folder) {name : Text}
    {rest : Location} : store.kind? (location ++ name :: rest) = none := by
  cases hother : store.kind? (location ++ name :: rest) with
  | none => rfl
  | some kind => exact absurd (kind?_eq_folder (Option.isSome_iff_exists.mpr ⟨kind, hother⟩)) hkind

theorem kind?_put_of_ne_folder {location : Location} (hkind : store.kind? location ≠ some .folder)
    (hplace : location ≠ [] ∧ store.kind? location.dropLast = some .folder) (new : Kind) (other : Location) :
    (store.put location new).kind? other = if other = location then some new else store.kind? other := by
  rw [kind?_put hplace.1 hplace.2]
  split
  · rfl
  · rename_i hne
    split
    · rename_i hbelow
      obtain ⟨rest, rfl⟩ := hbelow
      cases rest with
      | nil => exact absurd (List.append_nil _) hne
      | cons name rest => exact (kind?_below_eq_none hkind).symm
    · rfl

theorem write_of_locate_error {content : Content} {cause : DiskError} (h : store.locate path = .error cause) :
    store.write path content = .error cause := by
  unfold write
  rw [h]
  rfl

theorem write_eq_ok {content : Content} (h : store.write path content = .ok after) :
    store.locate path = .ok path.location ∧ path.endsInSlash = false ∧
      store.kind? path.location ≠ some .folder ∧
      ∀ other, after.kind? other = if other = path.location then some (.file content) else store.kind? other := by
  cases hlocate : store.locate path with
  | error cause =>
      rw [write_of_locate_error hlocate] at h
      cases h
  | ok there =>
      unfold write at h
      rw [hlocate] at h
      obtain ⟨rfl, hplace⟩ := locate_eq_ok hlocate
      have hok : (if path.endsInSlash ∨ store.kind? path.location = some .folder then .error DiskError.isFolder
        else .ok (store.put path.location (.file content))) = Except.ok after := h
      split at hok
      · cases hok
      · rename_i hfree
        cases hok
        rw [not_or] at hfree
        exact ⟨rfl, Bool.eq_false_iff.mpr hfree.1, hfree.2,
          kind?_put_of_ne_folder hfree.2 (hplace hfree.2) _⟩

theorem kind?_folder_of_write {content : Content} (h : store.write path content = .ok after) {other : Location}
    (hfolder : store.kind? other = some .folder) : after.kind? other = some .folder := by
  obtain ⟨-, -, hfree, hkind⟩ := write_eq_ok h
  rw [hkind, if_neg, hfolder]
  rintro rfl
  exact hfree hfolder

theorem removeTree_eq_ok (h : store.removeTree path = .ok after) :
    store.locate path = .ok path.location ∧ store.kind? path.location = some .folder ∧
      after = store.erase path.location := by
  cases hlocate : store.locate path with
  | error cause =>
      unfold removeTree lookup at h
      rw [hlocate] at h
      cases h
  | ok there =>
      obtain ⟨rfl, -⟩ := locate_eq_ok hlocate
      have hlookup := lookup_of_locate hlocate
      unfold removeTree at h
      rw [hlocate] at h
      cases hkind : store.kind? path.location with
      | none =>
          rw [hkind] at hlookup
          rw [hlookup] at h
          cases h
      | some kind =>
          rw [hkind] at hlookup
          cases kind with
          | folder =>
              rw [hlookup] at h
              cases h
              exact ⟨rfl, rfl, rfl⟩
          | file content =>
              dsimp only at hlookup
              split at hlookup <;> (rw [hlookup] at h; cases h)

theorem removeTree_of_locate (h : store.locate path = .ok path.location)
    (hfolder : store.kind? path.location = some .folder) :
    store.removeTree path = .ok (store.erase path.location) := by
  unfold removeTree
  rw [lookup_of_locate h, hfolder, h]
  rfl

theorem makeFolder_of_locate (h : store.locate path = .ok path.location) :
    store.makeFolder path =
      if (store.kind? path.location).isSome then .error .alreadyExists else .ok (store.put path.location .folder) := by
  unfold makeFolder
  rw [h]
  rfl

theorem kind?_put_folder (h : store.locate path = .ok path.location) (hnone : store.kind? path.location = none)
    (other : Location) :
    (store.put path.location .folder).kind? other =
      if other = path.location then some .folder else store.kind? other := by
  have hkind : store.kind? path.location ≠ some .folder := by
    simp [hnone]
  exact kind?_put_of_ne_folder hkind ((locate_eq_ok h).2 hkind) .folder other

theorem makeFolder_eq_ok (h : store.makeFolder path = .ok after) :
    store.locate path = .ok path.location ∧ store.kind? path.location = none ∧
      ∀ other, after.kind? other = if other = path.location then some .folder else store.kind? other := by
  cases hlocate : store.locate path with
  | error cause =>
      unfold makeFolder at h
      rw [hlocate] at h
      cases h
  | ok there =>
      obtain ⟨rfl, -⟩ := locate_eq_ok hlocate
      rw [makeFolder_of_locate hlocate] at h
      split at h
      · cases h
      · rename_i hnone
        cases h
        rw [Bool.not_eq_true, Option.isSome_eq_false_iff, Option.isNone_iff_eq_none] at hnone
        exact ⟨rfl, hnone, kind?_put_folder hlocate hnone⟩

/-! ### Growth -/

/-- Whether nothing has changed but that there may be new folders. -/
def Grown (store after : Store) : Prop :=
  ∀ location, after.kind? location = store.kind? location ∨
    store.kind? location = none ∧ after.kind? location = some .folder

theorem Grown.refl (store : Store) : store.Grown store := fun _ => Or.inl rfl

theorem Grown.trans {last : Store} (h : store.Grown after) (hlast : after.Grown last) : store.Grown last := by
  intro location
  rcases h location with heq | ⟨hnone, hfolder⟩
  · rw [← heq]
    exact hlast location
  · rcases hlast location with heq | ⟨hnone', -⟩
    · exact Or.inr ⟨hnone, heq.trans hfolder⟩
    · rw [hfolder] at hnone'
      cases hnone'

theorem Grown.kind? (h : store.Grown after) {location : Location} {kind : Kind}
    (hkind : store.kind? location = some kind) : after.kind? location = some kind := by
  rcases h location with heq | ⟨hnone, -⟩
  · rw [heq, hkind]
  · rw [hnone] at hkind
    cases hkind

theorem grown_makeFolder (h : store.makeFolder path = .ok after) : store.Grown after := by
  obtain ⟨-, hnone, hkind⟩ := makeFolder_eq_ok h
  intro location
  rw [hkind]
  split
  · rename_i heq
    exact Or.inr ⟨heq ▸ hnone, rfl⟩
  · exact Or.inl rfl

/-! ### Programs -/

variable {ε ε' α β : Type}

/-- The result of a program and the store that it leaves. -/
def exec (program : ExceptT ε (StateM Store) α) (store : Store) : Except ε α × Store := program.run store

theorem exec_bind (program : ExceptT ε (StateM Store) α) (next : α → ExceptT ε (StateM Store) β) (store : Store) :
    exec (program >>= next) store =
      match exec program store with
      | (.ok value, after) => exec (next value) after
      | (.error cause, after) => (.error cause, after) := by
  unfold exec
  rw [ExceptT.run_bind]
  show (match program.run store with
    | (result, after) => (match result with
      | .ok value => (next value).run
      | .error cause => pure (.error cause) : StateM Store _) after) = _
  rcases program.run store with ⟨_ | _, _⟩ <;> rfl

theorem exec_bind_eq_ok {program : ExceptT ε (StateM Store) α} {next : α → ExceptT ε (StateM Store) β} {result : β}
    (h : exec (program >>= next) store = (.ok result, after)) :
    ∃ value middle, exec program store = (.ok value, middle) ∧ exec (next value) middle = (.ok result, after) := by
  rw [exec_bind] at h
  rcases hexec : exec program store with ⟨_ | value, middle⟩
  · rw [hexec] at h
    cases h
  · rw [hexec] at h
    exact ⟨value, middle, rfl, h⟩

theorem exec_tryCatch (program : ExceptT ε (StateM Store) α) (handler : ε → ExceptT ε (StateM Store) α)
    (store : Store) :
    exec (tryCatch program handler) store =
      match exec program store with
      | (.ok value, after) => (.ok value, after)
      | (.error cause, after) => exec (handler cause) after := by
  unfold exec
  show (match program.run store with
    | (result, after) => (match result with
      | .ok value => pure (.ok value)
      | .error cause => (handler cause).run : StateM Store (Except ε α)) after) = _
  rcases program.run store with ⟨_ | _, _⟩ <;> rfl

theorem exec_adapt (f : ε → ε') (program : ExceptT ε (StateM Store) α) (store : Store) :
    exec (ExceptT.adapt f program) store = ((exec program store).1.mapError f, (exec program store).2) := by
  unfold exec
  show (match program.run store with | (result, after) => (result.mapError f, after)) = _
  rcases program.run store with ⟨_ | _, _⟩ <;> rfl

theorem exec_lift (f : StateM Store α) (store : Store) :
    exec (liftM f : ExceptT ε (StateM Store) α) store = (.ok (f store).1, (f store).2) := rfl

theorem exec_mapM_lift (f : α → StateM Store β) (values : List α) (store : Store) :
    exec (values.mapM fun value => (liftM (f value) : ExceptT ε (StateM Store) β)) store =
      (.ok (values.mapM f store).1, (values.mapM f store).2) := by
  induction values generalizing store with
  | nil => rfl
  | cons value rest ih =>
      rw [List.mapM_cons, exec_bind, exec_lift]
      dsimp only
      rw [exec_bind, ih]
      rw [List.mapM_cons]
      rfl

theorem exec_change (f : Store → Except DiskError Store) (store : Store) :
    exec (change f) store =
      match f store with
      | .ok after => (.ok (), after)
      | .error cause => (.error cause, store) := rfl

theorem exec_writeText (path : Path) (text : Text) (store : Store) :
    exec (MonadDisk.writeText path text) store =
      match store.write path (.text text) with
      | .ok after => (.ok (), after)
      | .error cause => (.error cause, store) := rfl

theorem exec_makeFolder (path : Path) (store : Store) :
    exec (MonadDisk.makeFolder path) store =
      match store.makeFolder path with
      | .ok after => (.ok (), after)
      | .error cause => (.error cause, store) := rfl

theorem exec_writeOnce (path : Path) (text : Text) (store : Store) :
    exec (Disk.writeOnce path text) store =
      if store.isThere path then (.ok (), store) else exec (MonadDisk.writeText path text) store := by
  unfold Disk.writeOnce
  rw [exec_bind]
  show exec (if store.isThere path = true then pure () else MonadDisk.writeText path text) store = _
  split <;> rfl

theorem exec_acceptFolder (path : Path) (cause : DiskError) (store : Store) :
    exec (Disk.acceptFolder path cause) store =
      if store.isFolder path then (.ok (), store) else (.error cause, store) := by
  unfold Disk.acceptFolder
  rw [exec_bind]
  show exec (if store.isFolder path = true then pure () else throw cause) store = _
  split <;> rfl

/-! ### Relations that programs keep to -/

/-- Whether a relation of the store before and the one after holds from one step to the next. -/
structure Chains (R : Store → Store → Prop) : Prop where
  refl : ∀ store, R store store
  trans : ∀ {store middle after}, R store middle → R middle after → R store after

/-- Whether all that makes folders, or writes a file that is not at a location, keeps to a relation of the store
before and the one after. -/
structure Allows (location : Location) (R : Store → Store → Prop) : Prop where
  refl : ∀ store, R store store
  trans : ∀ {store middle after}, R store middle → R middle after → R store after
  grown : ∀ {store after : Store}, store.Grown after → R store after
  write : ∀ {store after : Store} {path content}, path.location ≠ location → store.write path content = .ok after →
    R store after

/-- Whether no folder is lost, nor a file at a location. -/
structure Keeps (location : Location) (store after : Store) : Prop where
  folder : ∀ {other}, store.kind? other = some .folder → after.kind? other = some .folder
  file : ∀ {content}, store.kind? location = some (.file content) → after.kind? location = some (.file content)

/-- Whether a file at a location was there before. -/
def AddsNone (location : Location) (store after : Store) : Prop :=
  ∀ {content}, after.kind? location = some (.file content) → store.kind? location = some (.file content)

theorem allows_keeps (location : Location) : Allows location (Keeps location) where
  refl store := ⟨id, id⟩
  trans h hlast := ⟨hlast.folder ∘ h.folder, hlast.file ∘ h.file⟩
  grown h := ⟨h.kind?, h.kind?⟩
  write hne h := by
    obtain ⟨-, -, -, hkind⟩ := write_eq_ok h
    refine ⟨kind?_folder_of_write h, fun hfile => ?_⟩
    rw [hkind, if_neg hne.symm, hfile]

theorem allows_addsNone (location : Location) : Allows location (AddsNone location) where
  refl store := id
  trans h hlast := fun hfile => h (hlast hfile)
  grown h := by
    intro content hfile
    rcases h location with heq | ⟨-, hfolder⟩
    · rw [← heq, hfile]
    · rw [hfolder] at hfile
      cases hfile
  write hne h := by
    intro content hfile
    obtain ⟨-, -, -, hkind⟩ := write_eq_ok h
    rwa [hkind, if_neg hne.symm] at hfile

theorem addsNone_removeTree {location : Location} (hne : path.location ≠ []) (h : store.removeTree path = .ok after) :
    AddsNone location store after := by
  intro content hfile
  obtain ⟨-, -, rfl⟩ := removeTree_eq_ok h
  rw [kind?_erase store hne] at hfile
  split at hfile
  · cases hfile
  · exact hfile

/-- Whether a program keeps to a relation, whatever comes of it. -/
def Ensures (R : Store → Store → Prop) (program : ExceptT ε (StateM Store) α) : Prop :=
  ∀ store, R store (exec program store).2

namespace Chains

variable {R : Store → Store → Prop} (hR : Chains R)

include hR

theorem pure (value : α) : Ensures R (pure value : ExceptT ε (StateM Store) α) := hR.refl

theorem throw (cause : ε) : Ensures R (throw cause : ExceptT ε (StateM Store) α) := hR.refl

theorem look (f : Store → α) : Ensures R (liftM (look f) : ExceptT ε (StateM Store) α) := hR.refl

theorem exec_bind {program : ExceptT ε (StateM Store) α} {next : α → ExceptT ε (StateM Store) β}
    (hnext : ∀ value, Ensures R (next value)) (store : Store) :
    R (exec program store).2 (exec (program >>= next) store).2 := by
  rw [Store.exec_bind]
  rcases exec program store with ⟨_ | value, after⟩
  · exact hR.refl after
  · exact hnext value after

theorem bind {program : ExceptT ε (StateM Store) α} {next : α → ExceptT ε (StateM Store) β}
    (h : Ensures R program) (hnext : ∀ value, Ensures R (next value)) : Ensures R (program >>= next) :=
  fun store => hR.trans (h store) (hR.exec_bind hnext store)

theorem tryCatch {program : ExceptT ε (StateM Store) α} {handler : ε → ExceptT ε (StateM Store) α}
    (h : Ensures R program) (hhandler : ∀ cause, Ensures R (handler cause)) : Ensures R (tryCatch program handler) := by
  intro store
  have hfirst := h store
  rw [exec_tryCatch]
  rcases hexec : exec program store with ⟨cause | _, after⟩
  · rw [hexec] at hfirst
    exact hR.trans hfirst (hhandler cause after)
  · rw [hexec] at hfirst
    exact hfirst

theorem forM {program : α → ExceptT ε (StateM Store) Unit} {values : List α}
    (h : ∀ value ∈ values, Ensures R (program value)) : Ensures R (values.forM program) := by
  induction values with
  | nil => exact hR.pure ()
  | cons value rest ih =>
      obtain ⟨hvalue, hrest⟩ := List.forall_mem_cons.mp h
      exact hR.bind hvalue fun _ => ih hrest

theorem change {f : Store → Except DiskError Store} (h : ∀ store after, f store = .ok after → R store after) :
    Ensures R (change f) := by
  intro store
  rw [exec_change]
  cases hf : f store with
  | error cause => exact hR.refl store
  | ok after => exact h store after hf

theorem writeOnce {text : Text} (h : Ensures R (MonadDisk.writeText (m := StateM Store) path text)) :
    Ensures R (Disk.writeOnce (m := StateM Store) path text) := by
  refine hR.bind (hR.look _) fun there => ?_
  cases there with
  | false => exact h
  | true => exact hR.pure _

theorem acceptFolder (path : Path) (cause : DiskError) :
    Ensures R (Disk.acceptFolder (m := StateM Store) path cause) := by
  refine hR.bind (hR.look _) fun folder => ?_
  cases folder with
  | false => exact hR.throw cause
  | true => exact hR.pure _

theorem makeFolderIn {above : ExceptT DiskError (StateM Store) Unit} (habove : Ensures R above)
    (hmake : Ensures R (MonadDisk.makeFolder (m := StateM Store) path)) : Ensures R (Disk.makeFolderIn above path) := by
  refine hR.tryCatch hmake fun cause => ?_
  split
  · exact hR.bind habove fun _ => hR.tryCatch hmake (hR.acceptFolder path)
  · exact hR.acceptFolder path _

/-- Making sure of a folder only makes that folder and those above it. -/
theorem makeFolders (hmake : Ensures R (MonadDisk.makeFolder (m := StateM Store) path))
    (habove : ∀ steps, steps <+: path.steps →
      Ensures R (MonadDisk.makeFolder (m := StateM Store) (Path.ofParts path.isAbsolute steps))) :
    Ensures R (Disk.makeFolders (m := StateM Store) path) := by
  have hsteps : ∀ names : List Text, names.reverse <+: path.steps →
      Ensures R (Disk.makeFoldersOf (m := StateM Store) path.isAbsolute names) := by
    intro names hnames
    induction names with
    | nil => exact hR.pure ()
    | cons name above ih =>
        refine hR.makeFolderIn (ih ?_) (habove _ hnames)
        rw [List.reverse_cons] at hnames
        exact (List.prefix_append _ _).trans hnames
  refine hR.makeFolderIn (hsteps _ ?_) hmake
  rw [List.reverse_reverse]
  exact List.dropLast_prefix _

end Chains

namespace Allows

variable {location : Location} {R : Store → Store → Prop} (hR : Allows location R)

include hR

theorem chains : Chains R := ⟨hR.refl, hR.trans⟩

theorem writeText (hne : path.location ≠ location) (text : Text) :
    Ensures R (MonadDisk.writeText (m := StateM Store) path text) :=
  hR.chains.change fun _ _ => hR.write hne

theorem makeFolder (path : Path) : Ensures R (MonadDisk.makeFolder (m := StateM Store) path) :=
  hR.chains.change fun _ _ h => hR.grown (grown_makeFolder h)

theorem makeFolders (path : Path) : Ensures R (Disk.makeFolders (m := StateM Store) path) :=
  hR.chains.makeFolders (hR.makeFolder path) fun _ _ => hR.makeFolder _

end Allows

end Store

end SurrealZod
