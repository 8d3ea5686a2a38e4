import Mathlib.Data.List.Infix
import SurrealZod.Proofs.Disk.Refusals

/-! Programs that do the same to all stores of some kind. At each location such a program leaves what it leaves
whatever was there before, or fills the location if nothing was there. To do either once more changes nothing, so if the
program leaves stores of the kind it started from, it may be run again to no effect. -/

namespace SurrealZod

open Location

/-! ### Effects at a location -/

/-- What is done at a location: it is cleared or not, and then filled or not, unless something is there. -/
structure Effect where
  clears : Bool := false
  fills : Option Kind := none

namespace Effect

/-- What is at a location after an effect. -/
def apply (effect : Effect) (kind : Option Kind) : Option Kind := (if effect.clears then none else kind).or effect.fills

/-- One effect and then another one. -/
def andThen (first next : Effect) : Effect :=
  if next.clears then next else { first with fills := first.fills.or next.fills }

theorem apply_andThen (first next : Effect) (kind : Option Kind) :
    (first.andThen next).apply kind = next.apply (first.apply kind) := by
  rcases first with ⟨_ | _, _⟩ <;> rcases next with ⟨_ | _, _⟩ <;> simp [apply, andThen, Option.or_assoc]

theorem apply_apply (effect : Effect) (kind : Option Kind) : effect.apply (effect.apply kind) = effect.apply kind := by
  rcases effect with ⟨_ | _, _⟩ <;> cases kind <;> simp [apply]

/-- The effect of putting something in place of what is there. -/
def put (kind : Option Kind) : Effect := { clears := true, fills := kind }

@[simp] theorem apply_put (new kind : Option Kind) : (put new).apply kind = new := rfl

/-- The effect of putting something where nothing is. -/
def fill (kind : Kind) : Effect := { fills := kind }

@[simp] theorem apply_fill (new : Kind) (kind : Option Kind) : (fill new).apply kind = kind.or (some new) := rfl

end Effect

namespace Path

/-! ### Stops -/

/-- Where the way along a path stops: at all that it leads through, and at its end. -/
def stops (path : Path) : List Location := path.parts.inits.map (·.foldl go [])

variable {path base : Path} {location : Location}

theorem mem_stops : location ∈ path.stops ↔ ∃ front, front <+: path.parts ∧ front.foldl go [] = location := by
  simp [stops, List.mem_inits]

theorem mem_stops_concat {name : Text} (hparts : path.parts = base.parts ++ [name]) :
    location ∈ path.stops ↔ location ∈ base.stops ∨ location = path.location := by
  rw [mem_stops, mem_stops, hparts]
  constructor
  · rintro ⟨front, hfront, rfl⟩
    rcases List.prefix_concat_iff.mp hfront with rfl | hfront
    · exact Or.inr (by rw [Path.location, hparts])
    · exact Or.inl ⟨front, hfront, rfl⟩
  · rintro (⟨front, hfront, rfl⟩ | rfl)
    · exact ⟨front, hfront.trans (List.prefix_append _ _), rfl⟩
    · exact ⟨_, List.prefix_refl _, by rw [Path.location, hparts]⟩

end Path

namespace Store

open Disk

variable {store after : Store} {path : Path} {location : Location}

theorem Leads.kind?_of_mem_stops (h : store.Leads [] path.parts) (hstop : location ∈ path.stops) :
    store.kind? location = some .folder := by
  obtain ⟨front, ⟨rest, hrest⟩, rfl⟩ := Path.mem_stops.mp hstop
  rw [← hrest, leads_append] at h
  exact h.1.target

theorem Clear.ne_file_of_mem_stops (h : store.Clear [] path.parts) (hstop : location ∈ path.stops) (content : Content) :
    store.kind? location ≠ some (.file content) := by
  obtain ⟨front, ⟨rest, hrest⟩, rfl⟩ := Path.mem_stops.mp hstop
  rw [← hrest, clear_append] at h
  exact h.2.start content

variable {α β ε : Type} {P Q R : Store → Prop} {run next : Store → β × Store}

/-- Whether a run has one result, and one effect at each location, for all stores of a kind, and what kind of stores it
leaves. -/
def Uniform (P Q : Store → Prop) (run : Store → β × Store) : Prop :=
  ∃ (result : β) (effect : Location → Effect), ∀ store, P store →
    (run store).1 = result ∧ Q (run store).2 ∧
      ∀ location, (run store).2.kind? location = (effect location).apply (store.kind? location)

theorem uniform_of_changed (result : β) (effect : Location → Effect)
    (h : ∀ store, P store → ∃ after, run store = (result, after) ∧ Q after ∧
      ∀ location, after.kind? location = (effect location).apply (store.kind? location)) : Uniform P Q run := by
  refine ⟨result, effect, fun store hstore => ?_⟩
  obtain ⟨after, hrun, hafter, hkind⟩ := h store hstore
  rw [hrun]
  exact ⟨rfl, hafter, hkind⟩

theorem Uniform.mono {P' Q' : Store → Prop} (h : Uniform P Q run) (hP : ∀ store, P' store → P store)
    (hQ : ∀ store, Q store → Q' store) : Uniform P' Q' run := by
  obtain ⟨result, effect, hrun⟩ := h
  refine ⟨result, effect, fun store hstore => ?_⟩
  obtain ⟨hresult, hafter, hkind⟩ := hrun store (hP store hstore)
  exact ⟨hresult, hQ _ hafter, hkind⟩

/-- A fixed effect before a uniform run. -/
theorem Uniform.precede (hnext : Uniform Q R next) (effect : Location → Effect)
    (h : ∀ store, P store → ∃ middle, run store = next middle ∧ Q middle ∧
      ∀ location, middle.kind? location = (effect location).apply (store.kind? location)) : Uniform P R run := by
  obtain ⟨result, effects, hrun⟩ := hnext
  refine ⟨result, fun location => (effect location).andThen (effects location), fun store hstore => ?_⟩
  obtain ⟨middle, heq, hmiddle, hkind⟩ := h store hstore
  obtain ⟨hresult, hafter, hlast⟩ := hrun middle hmiddle
  rw [heq]
  refine ⟨hresult, hafter, fun location => ?_⟩
  rw [hlast, hkind, Effect.apply_andThen]

variable {γ δ : Type}

theorem Uniform.map {whole : Store → γ × Store} (h : Uniform P Q run) (f : β → γ)
    (hwhole : ∀ store, whole store = (f (run store).1, (run store).2)) : Uniform P Q whole := by
  obtain ⟨result, effect, hrun⟩ := h
  refine ⟨f result, effect, fun store hstore => ?_⟩
  obtain ⟨hresult, hafter, hkind⟩ := hrun store hstore
  rw [hwhole, hresult]
  exact ⟨rfl, hafter, hkind⟩

theorem Uniform.exec_bind {program : ExceptT ε (StateM Store) α} {next : α → ExceptT ε (StateM Store) β}
    (h : Uniform P Q (exec program)) (hnext : ∀ value, Uniform Q R (exec (next value)))
    (hstop : ∀ store, Q store → R store) : Uniform P R (exec (program >>= next)) := by
  obtain ⟨result, effect, hrun⟩ := h
  cases result with
  | error cause =>
      refine uniform_of_changed (.error cause) effect fun store hstore => ?_
      obtain ⟨hresult, hafter, hkind⟩ := hrun store hstore
      refine ⟨(exec program store).2, ?_, hstop _ hafter, hkind⟩
      rw [Store.exec_bind]
      rcases hexec : exec program store with ⟨_, after⟩
      rw [hexec] at hresult
      subst hresult
      rfl
  | ok value =>
      refine (hnext value).precede effect fun store hstore => ?_
      obtain ⟨hresult, hafter, hkind⟩ := hrun store hstore
      refine ⟨(exec program store).2, ?_, hafter, hkind⟩
      rw [Store.exec_bind]
      rcases hexec : exec program store with ⟨_, after⟩
      rw [hexec] at hresult
      subst hresult
      rfl

/-- To run once more changes nothing. -/
theorem Uniform.again (h : Uniform P Q run) (hstore : P store) (hafter : P after)
    (hkind : ∀ location, after.kind? location = (run store).2.kind? location) :
    (run after).1 = (run store).1 ∧
      ∀ location, (run after).2.kind? location = (run store).2.kind? location := by
  obtain ⟨result, effect, hrun⟩ := h
  obtain ⟨hresult, -, hfirst⟩ := hrun store hstore
  obtain ⟨hagain, -, hsecond⟩ := hrun after hafter
  refine ⟨hagain.trans hresult.symm, fun location => ?_⟩
  calc (run after).2.kind? location = (effect location).apply (after.kind? location) := hsecond location
    _ = (effect location).apply ((effect location).apply (store.kind? location)) := by rw [hkind, hfirst]
    _ = (effect location).apply (store.kind? location) := Effect.apply_apply _ _
    _ = (run store).2.kind? location := (hfirst location).symm

/-! ### Uniform operations -/

variable {init : List Text} {name text : Text}

variable {folder : Path}

end Store

end SurrealZod
