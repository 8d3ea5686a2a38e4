import SurrealZod.Disk.StoreAccess
import SurrealZod.Proofs.Disk.Paths

/-! Where paths lead. The parts of a path alone say to which location it leads; the store only says whether the
way is there, folder by folder. What a write or a new folder changes is one location, and no folder is lost by
it. -/

namespace SurrealZod

/-- Where one more part of a path leads from a location. -/
def Location.go (here : Location) (part : Text) : Location :=
  if part = ['.'] then here else if part = ['.', '.'] then here.dropLast else here ++ [part]

namespace Path

/-- Where a path leads, if the way is there. -/
def location (path : Path) : Location := path.parts.foldl Location.go []

/-- A name that leads into a folder. -/
structure IsEntryName (name : Text) : Prop where
  ne_nil : name ≠ []
  no_slash : '/' ∉ name
  ne_here : name ≠ ['.']
  ne_above : name ≠ ['.', '.']

theorem IsEntryName.go_eq {name : Text} (h : IsEntryName name) (here : Location) :
    Location.go here name = here ++ [name] := by
  rw [Location.go, if_neg h.ne_here, if_neg h.ne_above]

theorem foldl_go {names : List Text} (h : ∀ name ∈ names, IsEntryName name) (here : Location) :
    names.foldl Location.go here = here ++ names := by
  induction names generalizing here with
  | nil => exact (List.append_nil here).symm
  | cons name rest ih =>
      obtain ⟨hname, hrest⟩ := List.forall_mem_cons.mp h
      rw [List.foldl_cons, hname.go_eq, ih hrest, List.append_assoc, List.singleton_append]

theorem IsEntryName.parts_child {name : Text} (h : IsEntryName name) (base : Path) :
    (base.child name).parts = base.parts ++ [name] := by
  rw [Path.parts_child base h.no_slash, List.filter_cons_of_pos (by simpa using h.ne_nil), List.filter_nil]

theorem IsEntryName.location_child {name : Text} (h : IsEntryName name) (base : Path) :
    (base.child name).location = base.location ++ [name] := by
  rw [location, h.parts_child, List.foldl_append, ← location]
  exact h.go_eq _

theorem location_child_nil (base : Path) : (base.child []).location = base.location := by
  rw [location, Path.parts_child base List.not_mem_nil]
  simp [location]

end Path

namespace Store

open Location

/-- Whether a disk takes a part of a path. -/
def Fits (part : Text) : Prop := part = ['.'] ∨ part = ['.', '.'] ∨ Path.isTooLongName part = false

/-- Whether some parts lead to a folder through folders. -/
def Leads (store : Store) : Location → List Text → Prop
  | here, [] => store.kind? here = some .folder
  | here, part :: rest => store.kind? here = some .folder ∧ Fits part ∧ Leads store (go here part) rest

variable {store after : Store} {here : Location} {path : Path}

theorem Leads.start {parts : List Text} (h : store.Leads here parts) : store.kind? here = some .folder := by
  cases parts with
  | nil => exact h
  | cons => exact h.1

theorem Leads.target {parts : List Text} (h : store.Leads here parts) :
    store.kind? (parts.foldl go here) = some .folder := by
  induction parts generalizing here with
  | nil => exact h
  | cons part rest ih => exact ih h.2.2

theorem leads_append {parts more : List Text} :
    store.Leads here (parts ++ more) ↔ store.Leads here parts ∧ store.Leads (parts.foldl go here) more := by
  induction parts generalizing here with
  | nil => exact ⟨fun h => ⟨h.start, h⟩, fun h => h.2⟩
  | cons part rest ih =>
      rw [List.cons_append, Leads, Leads, ih, List.foldl_cons]
      exact ⟨fun ⟨hhere, hfits, hrest, hmore⟩ => ⟨⟨hhere, hfits, hrest⟩, hmore⟩,
        fun ⟨⟨hhere, hfits, hrest⟩, hmore⟩ => ⟨hhere, hfits, hrest, hmore⟩⟩

theorem Leads.fits {parts : List Text} (h : store.Leads here parts) : ∀ part ∈ parts, Fits part := by
  induction parts generalizing here with
  | nil => exact fun part hpart => absurd hpart List.not_mem_nil
  | cons part rest ih => exact List.forall_mem_cons.mpr ⟨h.2.1, ih h.2.2⟩

/-- All that is above something is folders. -/
theorem leads_of_isSome {names more : List Text} (hnames : ∀ name ∈ names, Path.IsEntryName name)
    (hfits : ∀ name ∈ names, Fits name) (hmore : more ≠ []) (h : (store.kind? (here ++ names ++ more)).isSome) :
    store.Leads here names := by
  induction names generalizing here with
  | nil =>
      obtain ⟨name, rest, rfl⟩ := List.exists_cons_of_ne_nil hmore
      exact kind?_eq_folder (List.append_nil here ▸ h)
  | cons name rest ih =>
      obtain ⟨hname, hrest⟩ := List.forall_mem_cons.mp hnames
      obtain ⟨hfit, hfits⟩ := List.forall_mem_cons.mp hfits
      rw [List.append_assoc] at h
      refine ⟨kind?_eq_folder h, hfit, ?_⟩
      rw [hname.go_eq]
      refine ih hrest hfits ?_
      rwa [List.append_assoc, List.append_assoc, List.singleton_append]

theorem Leads.mono {parts : List Text} (h : store.Leads here parts)
    (hfolder : ∀ {other}, store.kind? other = some .folder → after.kind? other = some .folder) :
    after.Leads here parts := by
  induction parts generalizing here with
  | nil => exact hfolder h
  | cons part rest ih => exact ⟨hfolder h.1, h.2.1, ih h.2.2⟩

/-- Steps in place do not matter on the way to a folder. -/
theorem leads_of_filter {parts : List Text} (h : store.Leads here (parts.filter (· ≠ ['.']))) :
    store.Leads here parts := by
  induction parts generalizing here with
  | nil => exact h
  | cons part rest ih =>
      by_cases hdot : part = ['.']
      · subst hdot
        rw [List.filter_cons_of_neg (by decide)] at h
        exact ⟨h.start, Or.inl rfl, ih h⟩
      · rw [List.filter_cons_of_pos (by simpa using hdot)] at h
        exact ⟨h.1, h.2.1, ih h.2.2⟩

/-- What is above a folder is a folder. -/
theorem kind?_dropLast (h : store.kind? here = some .folder) : store.kind? here.dropLast = some .folder := by
  rcases List.eq_nil_or_concat here with rfl | ⟨above, name, rfl⟩
  · exact h
  · rw [List.concat_eq_append] at h ⊢
    rw [List.dropLast_concat]
    exact kind?_eq_folder (Option.isSome_iff_exists.mpr ⟨_, h⟩)

/-! ### Locating -/

theorem step_eq_ok_iff {part : Text} {there : Location} :
    store.step here part = .ok there ↔ store.kind? here = some .folder ∧ Fits part ∧ there = go here part := by
  unfold step
  cases hkind : store.kind? here with
  | none => simp
  | some kind =>
      cases kind with
      | file content => simp
      | folder =>
          unfold go Fits
          dsimp only
          split_ifs with hdot habove hlong
          · exact ⟨fun h => ⟨rfl, Or.inl hdot, (Except.ok.inj h).symm⟩, fun h => congrArg _ h.2.2.symm⟩
          · exact ⟨fun h => ⟨rfl, Or.inr (Or.inl habove), (Except.ok.inj h).symm⟩, fun h => congrArg _ h.2.2.symm⟩
          · exact ⟨fun h => (by cases h), fun h => absurd h.2.1 (by simp [hdot, habove, hlong])⟩
          · have hshort : Path.isTooLongName part = false := Bool.eq_false_iff.mpr hlong
            exact ⟨fun h => ⟨rfl, Or.inr (Or.inr hshort), (Except.ok.inj h).symm⟩, fun h => congrArg _ h.2.2.symm⟩

theorem foldlM_step_concat {init : List Text} {part : Text} {there : Location} :
    (init ++ [part]).foldlM store.step here = .ok there ↔
      store.Leads here init ∧ Fits part ∧ there = go (init.foldl go here) part := by
  induction init generalizing here with
  | nil =>
      have hsingle : [part].foldlM store.step here = store.step here part := by
        rw [List.foldlM_cons]
        exact bind_pure _
      rw [List.nil_append, hsingle, step_eq_ok_iff]
      rfl
  | cons first rest ih =>
      rw [List.cons_append, List.foldlM_cons, Leads, List.foldl_cons]
      constructor
      · intro h
        cases hstep : store.step here first with
        | error cause =>
            rw [hstep] at h
            cases h
        | ok next =>
            rw [hstep] at h
            obtain ⟨hhere, hfits, rfl⟩ := step_eq_ok_iff.mp hstep
            obtain ⟨hleads, hlast, hthere⟩ := ih.mp h
            exact ⟨⟨hhere, hfits, hleads⟩, hlast, hthere⟩
      · rintro ⟨⟨hhere, hfits, hleads⟩, hlast, hthere⟩
        rw [step_eq_ok_iff.mpr ⟨hhere, hfits, rfl⟩]
        exact ih.mpr ⟨hleads, hlast, hthere⟩

theorem locate_eq_ok_iff {init : List Text} {part : Text} (hparts : path.parts = init ++ [part]) {there : Location} :
    store.locate path = .ok there ↔
      path.check = .ok () ∧ store.Leads [] init ∧ Fits part ∧ there = path.location := by
  have hlocation : path.location = go (init.foldl go []) part := by
    rw [Path.location, hparts, List.foldl_append]
    rfl
  rw [hlocation, ← foldlM_step_concat, ← hparts]
  unfold locate
  cases hcheck : path.check with
  | error cause => exact ⟨fun h => (by cases h), fun h => (by cases h.1)⟩
  | ok => exact ⟨fun h => ⟨rfl, h⟩, fun h => h.2⟩

/-- A path leads to its own location only, and what is no folder there stands in a folder. -/
theorem locate_eq_ok {there : Location} (h : store.locate path = .ok there) :
    there = path.location ∧
      (store.kind? there ≠ some .folder → there ≠ [] ∧ store.kind? there.dropLast = some .folder) := by
  rcases List.eq_nil_or_concat path.parts with hparts | ⟨init, part, hparts⟩
  · unfold locate at h
    cases hcheck : path.check with
    | error cause =>
        rw [hcheck] at h
        cases h
    | ok =>
        rw [hcheck, hparts] at h
        cases h
        rw [Path.location, hparts]
        exact ⟨rfl, fun hkind => absurd (kind?_root store) hkind⟩
  · rw [List.concat_eq_append] at hparts
    obtain ⟨-, hleads, -, hthere⟩ := (locate_eq_ok_iff hparts).mp h
    refine ⟨hthere, fun hkind => ?_⟩
    have hlocation : there = go (init.foldl go []) part := by
      rw [hthere, Path.location, hparts, List.foldl_append]
      rfl
    unfold go at hlocation
    split_ifs at hlocation with hdot habove
    · exact absurd (hlocation ▸ hleads.target) hkind
    · exact absurd (hlocation ▸ kind?_dropLast hleads.target) hkind
    · rw [hlocation, List.dropLast_concat]
      exact ⟨List.concat_ne_nil _ _, hleads.target⟩

theorem locate_mono {there : Location} (h : store.locate path = .ok there)
    (hfolder : ∀ {other}, store.kind? other = some .folder → after.kind? other = some .folder) :
    after.locate path = .ok there := by
  rcases List.eq_nil_or_concat path.parts with hparts | ⟨init, part, hparts⟩
  · have hsame : after.locate path = store.locate path := by
      unfold locate
      rw [hparts]
      rfl
    rw [hsame, h]
  · rw [List.concat_eq_append] at hparts
    obtain ⟨hcheck, hleads, hfits, hthere⟩ := (locate_eq_ok_iff hparts).mp h
    exact (locate_eq_ok_iff hparts).mpr ⟨hcheck, hleads.mono hfolder, hfits, hthere⟩

/-- The way to something below a folder is there if the way to the folder is. -/
theorem locate_below_iff {base names : List Text} (hparts : path.parts = base ++ names)
    (hnames : ∀ name ∈ names, Path.IsEntryName name) (hne : names ≠ []) (hsome : (store.kind? path.location).isSome) :
    store.locate path = .ok path.location ↔
      path.check = .ok () ∧ store.Leads [] base ∧ ∀ name ∈ names, Fits name := by
  obtain ⟨front, last, rfl⟩ := (List.eq_nil_or_concat names).resolve_left hne
  rw [List.concat_eq_append] at hparts hnames ⊢
  have hfront := (List.forall_mem_append.mp hnames).1
  have hlocation : path.location = base.foldl go [] ++ front ++ [last] := by
    rw [Path.location, hparts, List.foldl_append, Path.foldl_go hnames, List.append_assoc]
  rw [← List.append_assoc] at hparts
  rw [locate_eq_ok_iff hparts, leads_append, List.forall_mem_append, List.forall_mem_singleton]
  constructor
  · rintro ⟨hcheck, ⟨hbase, hleads⟩, hlast, -⟩
    exact ⟨hcheck, hbase, hleads.fits, hlast⟩
  · rintro ⟨hcheck, hbase, hfits, hlast⟩
    rw [hlocation] at hsome
    exact ⟨hcheck, ⟨hbase, leads_of_isSome hfront hfits (List.cons_ne_nil last []) hsome⟩, hlast, rfl⟩

theorem lookup_of_locate {there : Location} (h : store.locate path = .ok there) :
    store.lookup path =
      match store.kind? there with
      | none => .error .notFound
      | some (.file content) => if path.endsInSlash then .error .notFolder else .ok (.file content)
      | some .folder => .ok .folder := by
  unfold lookup
  rw [h]
  rfl

end Store

end SurrealZod
