import SurrealZod.Proofs.Disk.Folders

/-! Reading files back. A text that was written is read, until a program writes the file once more or removes a
folder above it. A folder that is removed and made again does not matter to what stands beside it. -/

namespace SurrealZod

namespace Store

open Location Disk

variable {store after : Store} {path : Path} {text : Text}

theorem readText_eq_ok_iff :
    store.readText path = .ok text ↔
      store.locate path = .ok path.location ∧ path.endsInSlash = false ∧
        store.kind? path.location = some (.file (.text text)) := by
  cases hlocate : store.locate path with
  | error cause =>
      have hread : store.readText path = .error cause := by
        unfold readText lookup
        rw [hlocate]
        rfl
      rw [hread]
      exact ⟨fun h => (by cases h), fun h => (by cases h.1)⟩
  | ok there =>
      obtain ⟨rfl, -⟩ := locate_eq_ok hlocate
      have hlookup := lookup_of_locate hlocate
      unfold readText
      rw [hlookup]
      rcases store.kind? path.location with _ | _ | (_ | _) <;> cases path.endsInSlash <;> simp [bind, Except.bind]

theorem Keeps.readText (h : Keeps path.location store after) (hread : store.readText path = .ok text) :
    after.readText path = .ok text := by
  obtain ⟨hlocate, hslash, hkind⟩ := readText_eq_ok_iff.mp hread
  exact readText_eq_ok_iff.mpr ⟨locate_mono hlocate h.folder, hslash, h.file hkind⟩

theorem readText_of_write (h : store.write path (.text text) = .ok after) : after.readText path = .ok text := by
  obtain ⟨hlocate, hslash, -, hkind⟩ := write_eq_ok h
  refine readText_eq_ok_iff.mpr ⟨locate_mono hlocate (kind?_folder_of_write h), hslash, ?_⟩
  rw [hkind, if_pos rfl]

theorem readText_of_exec_writeText {result : Unit}
    (h : exec (MonadDisk.writeText (m := StateM Store) path text) store = (.ok result, after)) :
    after.readText path = .ok text := by
  have hchange : exec (change (·.write path (.text text))) store = (.ok result, after) := h
  rw [exec_change] at hchange
  cases hwrite : store.write path (.text text) with
  | error cause =>
      rw [hwrite] at hchange
      cases hchange
  | ok written =>
      rw [hwrite] at hchange
      cases hchange
      exact readText_of_write hwrite

/-- A folder that is removed can be made again, and nothing beside it is lost. -/
theorem readText_renewed {folder : Path} {base rest : List Text} {name other : Text} {removed : Store}
    (hfolder : folder.parts = base ++ [name]) (hname : Path.IsEntryName name)
    (hparts : path.parts = base ++ other :: rest) (hentries : ∀ entry ∈ other :: rest, Path.IsEntryName entry)
    (hne : other ≠ name) (hremove : store.removeTree folder = .ok removed) (hread : store.readText path = .ok text) :
    ∃ after, exec (makeFolders (m := StateM Store) folder) removed = (.ok (), after) ∧
      after.readText path = .ok text := by
  obtain ⟨hlocate, hkind, rfl⟩ := removeTree_eq_ok hremove
  have hfolderAt : folder.location = base.foldl go [] ++ [name] := by
    rw [Path.location, hfolder, List.foldl_append]
    exact hname.go_eq _
  have hpathAt : path.location = base.foldl go [] ++ other :: rest := by
    rw [Path.location, hparts, List.foldl_append, Path.foldl_go hentries]
  have herase := @kind?_erase store folder.location (by simp [hfolderAt])
  obtain ⟨hcheck, hbase, hfits, -⟩ := (locate_eq_ok_iff hfolder).mp hlocate
  -- The way is clear after the removal, since all of it was folders before.
  have hleads : store.Leads [] folder.parts := by
    rw [hfolder, leads_append]
    refine ⟨hbase, hbase.target, hfits, ?_⟩
    rw [hname.go_eq, ← hfolderAt]
    exact hkind
  have hclear : (store.erase folder.location).Clear [] folder.parts := by
    refine hleads.clear.mono fun {location content} hfile => ?_
    rw [herase] at hfile
    split at hfile
    · cases hfile
    · exact hfile
  obtain ⟨after, hexec, hgrown, hagain⟩ := exec_makeFolders hfolder hname hcheck hclear
  refine ⟨after, hexec, ?_⟩
  obtain ⟨hpath, hslash, hfile⟩ := readText_eq_ok_iff.mp hread
  have hkept : after.kind? path.location = some (.file (.text text)) := by
    apply hgrown.kind?
    rw [herase, if_neg, hfile]
    rw [hfolderAt, hpathAt, List.prefix_append_right_inj, List.cons_prefix_cons]
    exact fun hprefix => hne hprefix.1.symm
  have hsome : ∀ {store : Store}, store.kind? path.location = some (.file (.text text)) →
      (store.kind? path.location).isSome := fun h => by rw [h]; rfl
  have hbelow := (locate_below_iff hparts hentries (List.cons_ne_nil _ _) (hsome hfile)).mp hpath
  refine readText_eq_ok_iff.mpr ⟨?_, hslash, hkept⟩
  refine (locate_below_iff hparts hentries (List.cons_ne_nil _ _) (hsome hkept)).mpr ⟨hbelow.1, ?_, hbelow.2.2⟩
  rw [hfolder] at hagain
  exact (leads_append.mp hagain).1

end Store

end SurrealZod
