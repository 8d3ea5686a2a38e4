import SurrealZod.Proofs.Disk.Effects
import SurrealZod.Proofs.Generation.Kept

/-! What tables do to a disk on which the folder of all generated files is made. What comes of a table depends on what
is in the way only: on files in place of folders, and on folders in place of client files. No table puts such a thing
on the disk, or removes one. So each table has the same effect whenever its turn comes, and so have all of them. -/

namespace SurrealZod

namespace Generation

open Store Disk SurrealZod.Path

variable {settings : Settings} {start store after : Store} {table : TableStatements} {schema : TableSchema}
  {location : Location} {names : List Text} {top stem name text : Text} {path : Path}

/-! ### What is in the way -/

/-- Whether something at a location is in the way of a run: a file in place of a folder, or a folder in place of a
client file. -/
def IsInTheWay (settings : Settings) (location : Location) : Kind → Prop
  | .file _ => ∃ names, names.length ≤ 2 ∧ location = settings.outputFolder.location ++ names
  | .folder => ∃ stem name, location = (clientFolder settings).location ++ [stem, name]

theorem isInTheWay_file {content : Content} :
    IsInTheWay settings (settings.outputFolder.location ++ names) (.file content) ↔ names.length ≤ 2 :=
  ⟨fun ⟨_, hlen, heq⟩ => List.append_cancel_left heq ▸ hlen, fun hlen => ⟨names, hlen, rfl⟩⟩

theorem location_clientFolder (settings : Settings) :
    (clientFolder settings).location = settings.outputFolder.location ++ ["client".toList] :=
  isEntryName_client.location_child _

theorem isInTheWay_folder :
    IsInTheWay settings (settings.outputFolder.location ++ names) .folder ↔
      ∃ stem name, names = ["client".toList, stem, name] := by
  refine exists₂_congr fun stem name => ?_
  rw [location_clientFolder, List.append_assoc]
  exact ⟨List.append_cancel_left, congrArg _⟩

/-- Whether something is in the way at a location. -/
def IsBlocked (settings : Settings) (store : Store) (location : Location) : Prop :=
  ∃ kind, store.kind? location = some kind ∧ IsInTheWay settings location kind

theorem isBlocked_iff_file (hlen : names.length ≤ 2) :
    IsBlocked settings store (settings.outputFolder.location ++ names) ↔
      ∃ content, store.kind? (settings.outputFolder.location ++ names) = some (.file content) := by
  constructor
  · rintro ⟨_ | content, hkind, hway⟩
    · obtain ⟨stem, name, rfl⟩ := isInTheWay_folder.mp hway
      simp at hlen
    · exact ⟨content, hkind⟩
  · rintro ⟨content, hkind⟩
    exact ⟨_, hkind, isInTheWay_file.mpr hlen⟩

/-- A folder is not in the way unless it is in place of a client file. -/
theorem not_isBlocked_of_short (hlen : names.length ≤ 2)
    (hfile : ∀ content, store.kind? (settings.outputFolder.location ++ names) ≠ some (.file content)) :
    ¬IsBlocked settings store (settings.outputFolder.location ++ names) := by
  rw [isBlocked_iff_file hlen]
  exact fun ⟨content, hkind⟩ => hfile content hkind

/-- A file is not in the way unless it is in place of a folder. -/
theorem not_isBlocked_of_long (hlen : 2 < names.length)
    (hfolder : store.kind? (settings.outputFolder.location ++ names) ≠ some .folder) :
    ¬IsBlocked settings store (settings.outputFolder.location ++ names) := by
  rintro ⟨_ | content, hkind, hway⟩
  · exact hfolder hkind
  · rw [isInTheWay_file] at hway
    omega

/-! ### Ready stores -/

/-- Whether the folder of all generated files is made, and the same is in the way as at the start. -/
structure Ready (settings : Settings) (start store : Store) : Prop where
  leads : store.Leads [] (generatedFolder settings).parts
  isBlocked_iff : ∀ location, IsBlocked settings store location ↔ IsBlocked settings start location

theorem Ready.of_changes (h : Ready settings start store) (hleads : after.Leads [] (generatedFolder settings).parts)
    (hchange : ∀ location, after.kind? location = store.kind? location ∨
      ¬IsBlocked settings store location ∧ ¬IsBlocked settings after location) : Ready settings start after where
  leads := hleads
  isBlocked_iff location := by
    rw [← h.isBlocked_iff location]
    rcases hchange location with heq | ⟨hbefore, hafter⟩
    · rw [IsBlocked, IsBlocked, heq]
    · exact iff_of_false hafter hbefore

theorem Ready.leads_outputFolder (h : Ready settings start store) : store.Leads [] settings.outputFolder.parts := by
  have hleads := h.leads
  rw [parts_generatedFolder, leads_append] at hleads
  exact hleads.1

/-- A file in a table's folder is not in the way. -/
theorem Ready.write {content : Content} (h : Ready settings start store) (names : List Text) (hlen : 2 < names.length)
    (hplace : path.location = settings.outputFolder.location ++ names) (hwrite : store.write path content = .ok after) :
    Ready settings start after := by
  obtain ⟨-, -, hfree, hkind⟩ := write_eq_ok hwrite
  refine h.of_changes (h.leads.mono (kind?_folder_of_write hwrite)) fun location => ?_
  by_cases heq : location = path.location
  · have hfile := hkind location
    rw [if_pos heq] at hfile
    subst heq
    rw [hplace] at hfree hfile ⊢
    exact Or.inr ⟨not_isBlocked_of_long hlen hfree, not_isBlocked_of_long hlen (by simp [hfile])⟩
  · exact Or.inl (by rw [hkind, if_neg heq])

/-- Whether a store is ready, and a folder is made. -/
structure ReadyIn (settings : Settings) (start : Store) (folder : Path) (store : Store) : Prop
    extends Ready settings start store where
  leads_folder : store.Leads [] folder.parts

/-! ### Folders of tables -/

section Folder

variable (settings) (top stem) in
/-- The folder of a stem below one of the output folder. -/
def stemFolder : Path := (settings.outputFolder.child top).child stem

variable (htop : IsEntryName top) (hstem : IsEntryName stem)

include htop hstem

theorem location_stemFolder :
    (stemFolder settings top stem).location = settings.outputFolder.location ++ [top, stem] := by
  rw [stemFolder, hstem.location_child, htop.location_child, List.append_assoc]
  rfl

theorem Ready.makeFolders (h : Ready settings start store)
    (hclear : store.Clear [] (stemFolder settings top stem).parts)
    (hkind : ∀ location, after.kind? location =
      if location ∈ (stemFolder settings top stem).stops then some .folder else store.kind? location) :
    Ready settings start after := by
  have hkeeps : ∀ {other}, store.kind? other = some .folder → after.kind? other = some .folder := by
    intro other hfolder
    rw [hkind]
    split
    · rfl
    · exact hfolder
  refine h.of_changes (h.leads.mono hkeeps) fun location => ?_
  rw [hkind]
  split
  swap
  · exact Or.inl rfl
  rename_i hstop
  have hfolder := hkind location
  rw [if_pos hstop] at hfolder
  have hfree := hclear.ne_file_of_mem_stops hstop
  have hshort : ∀ names : List Text, names.length ≤ 2 → location = settings.outputFolder.location ++ names →
      ¬IsBlocked settings store location ∧ ¬IsBlocked settings after location := by
    rintro names hlen rfl
    exact ⟨not_isBlocked_of_short hlen hfree, not_isBlocked_of_short hlen (ne_file_of_folder hfolder)⟩
  rcases (mem_stops_concat (hstem.parts_child _)).mp hstop with hstop | heq
  · rcases (mem_stops_concat (htop.parts_child _)).mp hstop with hstop | heq
    · exact Or.inl (h.leads_outputFolder.kind?_of_mem_stops hstop).symm
    · exact Or.inr (hshort [top] (Nat.le_succ 1) (heq.trans (htop.location_child _)))
  · exact Or.inr (hshort [top, stem] (Nat.le_refl 2) (heq.trans (location_stemFolder htop hstem)))

end Folder

/-! ### Custom files and client files -/

theorem ReadyIn.write {folder : Path} {content : Content} (h : ReadyIn settings start folder store)
    (names : List Text) (hlen : 2 < names.length) (hplace : path.location = settings.outputFolder.location ++ names)
    (hwrite : store.write path content = .ok after) : ReadyIn settings start folder after :=
  ⟨h.toReady.write names hlen hplace hwrite, h.leads_folder.mono (kind?_folder_of_write hwrite)⟩

end Generation

end SurrealZod
