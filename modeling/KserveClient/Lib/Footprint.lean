import Mathlib.Data.List.Basic
import Mathlib.Logic.Function.Basic

/-!
# Footprint — what each owner holds of shared resources

A `Heap` says which resources are held and what is known of each.  A call is a list of actions on it:
`acquire` takes a resource that is not held, `access` looks at one that is held, and may refuse and may
change what is known of it, `release` gives it back.  `run` has no result as soon as an action is not
allowed.

* `run_frame`: what others hold is neither needed nor touched.
* `Shared.run`: several owners on one heap, each acting on its own part.
* `run_balance`: what is acquired is released exactly once, or still held.
* `Slots`: the heap of an owner with at most one resource of each kind, and its runs.
-/

namespace Footprint

variable {ρ ν ι κ : Type*}

/-- What is known of each resource, if it is held. -/
abbrev Heap (ρ ν : Type*) := ρ → Option ν

/-! ### Heaps -/

section Heaps

variable {h f : Heap ρ ν} {part : ι → Heap ρ ν} {r : ρ}

/-- No resource is held in both. -/
def Apart (h f : Heap ρ ν) : Prop := ∀ r, h r = none ∨ f r = none

/-- Both heaps together. -/
def union (h f : Heap ρ ν) : Heap ρ ν := fun r => (h r).or (f r)

theorem union_of_left {v : ν} (hr : h r = some v) : union h f r = some v := by
  simp [union, hr]

theorem Apart.right_of_some {v : ν} (hapart : Apart h f) (hr : h r = some v) : f r = none := by
  rcases hapart r with hnone | hnone
  · rw [hnone] at hr
    cases hr
  · exact hnone

/-- The heap `h` is divided among its owners. -/
structure Shared (h : Heap ρ ν) (part : ι → Heap ρ ν) : Prop where
  covers : ∀ r v, h r = some v ↔ ∃ i, part i r = some v
  apart : ∀ i j, i ≠ j → Apart (part i) (part j)

theorem shared_empty : Shared (fun _ => none : Heap ρ ν) (fun (_ : ι) _ => none) where
  covers _ _ := by simp
  apart _ _ _ _ := .inl rfl

/-- The part of `h` that `own` does not hold. -/
def others (h own : Heap ρ ν) : Heap ρ ν := fun r => if own r = none then h r else none

theorem Shared.union_others (hs : Shared h part) (i : ι) : union (part i) (others h (part i)) = h := by
  ext r v
  rcases hr : part i r with _ | w
  · simp [union, others, hr]
  · rw [union_of_left hr, (hs.covers r w).mpr ⟨i, hr⟩]

theorem apart_others (h own : Heap ρ ν) : Apart own (others h own) := by
  intro r
  by_cases hr : own r = none
  · exact .inl hr
  · exact .inr (if_neg hr)

/-- What the others hold is what is left. -/
theorem Shared.others_some (hs : Shared h part) (i : ι) (r : ρ) (v : ν) :
    others h (part i) r = some v ↔ ∃ j, j ≠ i ∧ part j r = some v := by
  rw [others]
  split_ifs with hr
  · rw [hs.covers]
    refine exists_congr fun j => ⟨fun hj => ⟨?_, hj⟩, And.right⟩
    rintro rfl
    rw [hr] at hj
    cases hj
  · refine iff_of_false (by simp) ?_
    rintro ⟨j, hji, hj⟩
    rcases hs.apart j i hji r with hnone | hnone
    · rw [hnone] at hj
      cases hj
    · exact hr hnone

end Heaps

/-! ### Runs -/

inductive Action (ρ ν : Type*) where
  | acquire (r : ρ) (v : ν)
  | access (r : ρ) (f : ν → Option ν)
  | release (r : ρ)

section Runs

variable [DecidableEq ρ]

def Action.apply : Action ρ ν → Heap ρ ν → Option (Heap ρ ν)
  | acquire r v, h => if h r = none then some (Function.update h r (some v)) else none
  | access r f, h => ((h r).bind f).map fun v => Function.update h r (some v)
  | release r, h => (h r).map fun _ => Function.update h r none

def run : List (Action ρ ν) → Heap ρ ν → Option (Heap ρ ν)
  | [], h => some h
  | a :: as, h => (a.apply h).bind (run as)

variable {a : Action ρ ν} {as bs : List (Action ρ ν)} {h h' f : Heap ρ ν} {part : ι → Heap ρ ν}
  {i : ι} {r : ρ}

@[simp] theorem run_nil (h : Heap ρ ν) : run [] h = some h := rfl

theorem run_append : run (as ++ bs) h = (run as h).bind (run bs) := by
  induction as generalizing h with
  | nil => rfl
  | cons a as ih =>
    rw [List.cons_append, run, run, Option.bind_assoc]
    exact congrArg _ (funext fun _ => ih)

/-- A run is a run of its parts. -/
theorem run_append_some : run (as ++ bs) h = some h' ↔ ∃ h₁, run as h = some h₁ ∧ run bs h₁ = some h' := by
  rw [run_append, Option.bind_eq_some_iff]

/-- An action leaves every other resource alone. -/
theorem apply_some (ha : a.apply h = some h') :
    (∃ r v, a = .acquire r v ∧ h r = none ∧ h' = Function.update h r (some v)) ∨
    (∃ r g v v', a = .access r g ∧ h r = some v ∧ g v = some v' ∧ h' = Function.update h r (some v')) ∨
    ∃ r v, a = .release r ∧ h r = some v ∧ h' = Function.update h r none := by
  match a with
  | .acquire r v =>
    simp only [Action.apply] at ha
    split_ifs at ha with hr
    exact .inl ⟨r, v, rfl, hr, (Option.some.inj ha).symm⟩
  | .access r g =>
    obtain ⟨v', hv', rfl⟩ := Option.map_eq_some_iff.mp ha
    obtain ⟨v, hv, hg⟩ := Option.bind_eq_some_iff.mp hv'
    exact .inr (.inl ⟨r, g, v, v', rfl, hv, hg, rfl⟩)
  | .release r =>
    obtain ⟨v, hv, rfl⟩ := Option.map_eq_some_iff.mp ha
    exact .inr (.inr ⟨r, v, rfl, hv, rfl⟩)

/-! ### Balance -/

/-- How often `r` is acquired. -/
def acquisitions (r : ρ) (as : List (Action ρ ν)) : ℕ :=
  as.countP fun
    | .acquire s _ => s = r
    | _ => false

/-- How often `r` is released. -/
def releases (r : ρ) (as : List (Action ρ ν)) : ℕ :=
  as.countP fun
    | .release s => s = r
    | _ => false

/-- **Every acquisition is released once**, or the resource is still held. -/
theorem run_balance (hrun : run as h = some h') (r : ρ) :
    acquisitions r as + (h r).isSome.toNat = releases r as + (h' r).isSome.toNat := by
  induction as generalizing h with
  | nil =>
    cases hrun
    rfl
  | cons a as ih =>
    obtain ⟨h₁, ha, hrest⟩ := Option.bind_eq_some_iff.mp hrun
    have htail := ih hrest
    simp only [acquisitions, releases, List.countP_cons] at htail ⊢
    rcases apply_some ha with ⟨s, v, rfl, hs, rfl⟩ | ⟨s, g, v, v', rfl, hs, -, rfl⟩ | ⟨s, v, rfl, hs, rfl⟩
    · by_cases hsr : s = r
      · subst hsr
        simp [hs] at htail ⊢
        omega
      · simp [hsr, Function.update_of_ne (Ne.symm hsr)] at htail ⊢
        omega
    · by_cases hsr : s = r
      · subst hsr
        simp [hs] at htail ⊢
        omega
      · simp [Function.update_of_ne (Ne.symm hsr)] at htail ⊢
        omega
    · by_cases hsr : s = r
      · subst hsr
        simp [hs] at htail ⊢
        omega
      · simp [hsr, Function.update_of_ne (Ne.symm hsr)] at htail ⊢
        omega

/-! ### The frame -/

/-- Taking a resource finds it free. -/
def Action.Free (h : Heap ρ ν) : Action ρ ν → Prop
  | acquire r _ => h r = none
  | _ => True

instance (h : Heap ρ ν) (a : Action ρ ν) : Decidable (a.Free h) := by
  cases a <;> unfold Action.Free <;> infer_instance

/-- Only resources that are not held are given out. -/
def Grants : List (Action ρ ν) → Heap ρ ν → Prop
  | [], _ => True
  | a :: as, h => a.Free h ∧ ∀ h' ∈ a.apply h, Grants as h'

instance decidableGrants : (as : List (Action ρ ν)) → (h : Heap ρ ν) → Decidable (Grants as h)
  | [], _ => inferInstanceAs (Decidable True)
  | a :: as, h =>
    have : DecidablePred (Grants as) := decidableGrants as
    inferInstanceAs (Decidable (a.Free h ∧ ∀ h' ∈ a.apply h, Grants as h'))

theorem grants_append (hrun : run as h = some h') :
    Grants (as ++ bs) h ↔ Grants as h ∧ Grants bs h' := by
  induction as generalizing h with
  | nil =>
    cases hrun
    exact (and_iff_right trivial).symm
  | cons a as ih =>
    obtain ⟨h₁, ha, hrest⟩ := Option.bind_eq_some_iff.mp hrun
    simp only [List.cons_append, Grants, ha, Option.mem_def, Option.some.injEq, forall_eq', ih hrest, and_assoc]

theorem Grants.left (hg : Grants (as ++ bs) h) : Grants as h := by
  induction as generalizing h with
  | nil => trivial
  | cons a as ih => exact ⟨hg.1, fun h' ha => ih (hg.2 h' ha)⟩

/-- Giving back needs nothing. -/
theorem grants_of_free (hfree : ∀ a ∈ as, ∀ h : Heap ρ ν, a.Free h) (h : Heap ρ ν) : Grants as h := by
  induction as generalizing h with
  | nil => trivial
  | cons a as ih =>
    refine ⟨hfree a List.mem_cons_self h, fun h' _ => ih (fun b hb => hfree b ?_) h'⟩
    exact List.mem_cons_of_mem a hb

theorem union_update (x : Option ν) (hr : x.isSome ∨ f r = none) :
    Function.update (union h f) r x = union (Function.update h r x) f := by
  ext s : 1
  by_cases hs : s = r
  · subst hs
    rcases hr with hx | hf
    · obtain ⟨v, rfl⟩ := Option.isSome_iff_exists.mp hx
      simp [union]
    · simp [union, hf]
  · simp [union, hs]

theorem apart_update {x : Option ν} (hapart : Apart h f) (hr : f r = none) :
    Apart (Function.update h r x) f := by
  intro s
  by_cases hs : s = r
  · subst hs
    exact .inr hr
  · rw [Function.update_of_ne hs]
    exact hapart s

theorem apply_frame (ha : a.apply h = some h') (hapart : Apart h f)
    (hgrant : ∀ r v, a = .acquire r v → f r = none) :
    a.apply (union h f) = some (union h' f) ∧ Apart h' f := by
  rcases apply_some ha with ⟨r, v, rfl, hr, rfl⟩ | ⟨r, g, v, v', rfl, hr, hg, rfl⟩ | ⟨r, v, rfl, hr, rfl⟩
  · have hf := hgrant r v rfl
    have hboth : union h f r = none := by simp [union, hr, hf]
    refine ⟨?_, apart_update hapart hf⟩
    rw [Action.apply, if_pos hboth, union_update _ (.inr hf)]
  · have hf := hapart.right_of_some hr
    refine ⟨?_, apart_update hapart hf⟩
    rw [Action.apply, union_of_left hr, Option.bind_some, hg, Option.map_some, union_update _ (.inr hf)]
  · have hf := hapart.right_of_some hr
    refine ⟨?_, apart_update hapart hf⟩
    rw [Action.apply, union_of_left hr, Option.map_some, union_update _ (.inr hf)]

/-- **The frame rule**: a run on one's own heap is a run with everything else that is held, which stays
as it is. -/
theorem run_frame (hrun : run as h = some h') (hapart : Apart h f) (hgrants : Grants as (union h f)) :
    run as (union h f) = some (union h' f) ∧ Apart h' f := by
  induction as generalizing h with
  | nil =>
    cases hrun
    exact ⟨rfl, hapart⟩
  | cons a as ih =>
    obtain ⟨h₁, ha, hrest⟩ := Option.bind_eq_some_iff.mp hrun
    have hnone : ∀ r v, a = .acquire r v → f r = none := by
      rintro r v rfl
      have hboth : union h f r = none := hgrants.1
      rw [union, Option.or_eq_none_iff] at hboth
      exact hboth.2
    obtain ⟨ha', hapart'⟩ := apply_frame ha hapart hnone
    rw [run, ha', Option.bind_some]
    exact ih hrest hapart' (hgrants.2 _ ha')

/-! ### Several owners -/

/-- **One owner acts, the others keep their parts.** -/
theorem Shared.run [DecidableEq ι] (hs : Shared h part) (hrun : run as (part i) = some f)
    (hgrants : Grants as h) : ∃ h', run as h = some h' ∧ Shared h' (Function.update part i f) := by
  rw [← hs.union_others i] at hgrants
  obtain ⟨hwhole, hapart⟩ := run_frame hrun (apart_others _ _) hgrants
  rw [hs.union_others i] at hwhole
  refine ⟨_, hwhole, ?_, ?_⟩
  · intro r v
    constructor
    · intro hr
      rcases hf : f r with _ | w
      · rw [union, hf, Option.none_or, hs.others_some] at hr
        obtain ⟨j, hj, hpart⟩ := hr
        exact ⟨j, by rwa [Function.update_of_ne hj]⟩
      · rw [union_of_left hf] at hr
        exact ⟨i, by rw [Function.update_self, hf, hr]⟩
    · rintro ⟨j, hj⟩
      by_cases hji : j = i
      · rw [hji, Function.update_self] at hj
        exact union_of_left hj
      · rw [Function.update_of_ne hji] at hj
        have hother := (hs.others_some i r v).mpr ⟨j, hji, hj⟩
        rcases hapart r with hf | hnone
        · rw [union, hf, Option.none_or, hother]
        · rw [hnone] at hother
          cases hother
  · have hone : ∀ j, j ≠ i → Apart f (part j) := by
      intro j hji r
      rcases hj : part j r with _ | v
      · exact .inr rfl
      · have hother := (hs.others_some i r v).mpr ⟨j, hji, hj⟩
        rcases hapart r with hf | hnone
        · exact .inl hf
        · rw [hnone] at hother
          cases hother
    intro j k hjk
    by_cases hji : j = i
    · subst hji
      rw [Function.update_self, Function.update_of_ne (Ne.symm hjk)]
      exact hone k (Ne.symm hjk)
    · rw [Function.update_of_ne hji]
      by_cases hki : k = i
      · subst hki
        rw [Function.update_self]
        exact fun r => (hone j hji r).symm
      · rw [Function.update_of_ne hki]
        exact hs.apart j k hjk

end Runs

/-! ### One resource of each kind -/

/-- What an owner holds of each kind: its one resource, and what is known of it. -/
abbrev Slots (κ ι ν : Type*) := κ → Option (ι × ν)

namespace Slots

variable [DecidableEq κ] [DecidableEq ι]

/-- The slots as a heap. -/
def heap (l : Slots κ ι ν) : Heap (κ × ι) ν := fun r => (l r.1).bind fun x => if x.1 = r.2 then some x.2 else none

def apply : Action (κ × ι) ν → Slots κ ι ν → Option (Slots κ ι ν)
  | .acquire r v, l => if l r.1 = none then some (Function.update l r.1 (some (r.2, v))) else none
  | .access r f, l => (l r.1).bind fun x =>
      if x.1 = r.2 then (f x.2).map fun v => Function.update l r.1 (some (r.2, v)) else none
  | .release r, l => (l r.1).bind fun x =>
      if x.1 = r.2 then some (Function.update l r.1 none) else none

def run : List (Action (κ × ι) ν) → Slots κ ι ν → Option (Slots κ ι ν)
  | [], l => some l
  | a :: as, l => (apply a l).bind (run as)

variable {a : Action (κ × ι) ν} {as bs : List (Action (κ × ι) ν)} {l l' : Slots κ ι ν} {r : κ × ι}

theorem run_append : run (as ++ bs) l = (run as l).bind (run bs) := by
  induction as generalizing l with
  | nil => rfl
  | cons a as ih =>
    rw [List.cons_append, run, run, Option.bind_assoc]
    exact congrArg _ (funext fun _ => ih)

omit [DecidableEq κ] in
theorem heap_of_none (hr : l r.1 = none) : l.heap r = none := by
  rw [heap, hr, Option.bind_none]

omit [DecidableEq κ] in
theorem heap_of_some {v : ν} (hr : l r.1 = some (r.2, v)) : l.heap r = some v := by
  rw [heap, hr, Option.bind_some, if_pos rfl]

/-- A slot that is filled or emptied. -/
theorem heap_update (x : Option ν) (hr : ∀ y, l r.1 = some y → y.1 = r.2) :
    heap (Function.update l r.1 (x.map fun v => (r.2, v))) = Function.update l.heap r x := by
  ext s : 1
  by_cases hsr : s = r
  · subst hsr
    rw [heap, Function.update_self, Function.update_self]
    cases x <;> simp
  · rw [Function.update_of_ne hsr]
    by_cases hk : s.1 = r.1
    · -- the same kind, another resource
      have hp : r.2 ≠ s.2 := fun hp => hsr (Prod.ext hk hp.symm)
      rw [heap, hk, Function.update_self, heap, hk]
      rcases hl : l r.1 with _ | y
      · cases x <;> simp [hp]
      · have hy := hr y hl
        cases x <;> simp [hp, hy]
    · rw [heap, heap, Function.update_of_ne hk]

theorem heap_apply (ha : apply a l = some l') : a.apply l.heap = some l'.heap := by
  match a with
  | .acquire r v =>
    simp only [apply] at ha
    split_ifs at ha with hr
    have hupdate := heap_update (some v) (by simp [hr] : ∀ y, l r.1 = some y → y.1 = r.2)
    rw [Action.apply, if_pos (heap_of_none hr), ← Option.some.inj ha, ← hupdate]
    rfl
  | .access r f =>
    obtain ⟨⟨q, v⟩, hr, hx⟩ := Option.bind_eq_some_iff.mp ha
    split_ifs at hx with hq
    obtain ⟨v', hv', rfl⟩ := Option.map_eq_some_iff.mp hx
    obtain rfl : q = r.2 := hq
    have hupdate := heap_update (some v') (by simp [hr] : ∀ y, l r.1 = some y → y.1 = r.2)
    rw [Action.apply, heap_of_some hr, Option.bind_some, hv', Option.map_some, ← hupdate]
    rfl
  | .release r =>
    obtain ⟨⟨q, v⟩, hr, hx⟩ := Option.bind_eq_some_iff.mp ha
    split_ifs at hx with hq
    obtain rfl : q = r.2 := hq
    have hupdate := heap_update none (by simp [hr] : ∀ y, l r.1 = some y → y.1 = r.2)
    rw [Action.apply, heap_of_some hr, Option.map_some, ← Option.some.inj hx, ← hupdate]
    rfl

/-- A run on the slots is a run on their heap. -/
theorem heap_run (hrun : run as l = some l') : Footprint.run as l.heap = some l'.heap := by
  induction as generalizing l with
  | nil =>
    cases hrun
    rfl
  | cons a as ih =>
    obtain ⟨l₁, ha, hrest⟩ := Option.bind_eq_some_iff.mp hrun
    rw [Footprint.run, heap_apply ha, Option.bind_some]
    exact ih hrest

end Slots

end Footprint
