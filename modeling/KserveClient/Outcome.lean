import KserveClient.Lib.Numeral
import Mathlib.Data.List.Forall2
import Mathlib.Data.List.TakeDrop

/-!
# KserveClient.Outcome — byte strings, exceptions and the results of C++ code

A `std::string` or `std::vector<uint8_t>` is a list of bytes (`Bytes`); `str` is the byte string of a
literal.  Evaluating an expression of the client ends in an `Outcome`: a value, a C++ exception, a
step to which C++ (or a library precondition) gives no meaning, an endless loop, or a read that waits
for bytes which do not come.  The number parsers `std::stoi`, `std::stol`, `std::stoul` are here with
the exceptions they throw.
-/

namespace KserveClient

abbrev Bytes := List UInt8

/-- The bytes of an ASCII literal. -/
def str (s : String) : Bytes := s.toList.map fun c => UInt8.ofNat c.toNat

def crlf : Bytes := [13, 10]

/-- `::tolower` in the C locale. -/
def lowerByte (c : UInt8) : UInt8 := if 65 ≤ c ∧ c ≤ 90 then c + 32 else c

def toLower (s : Bytes) : Bytes := s.map lowerByte

/-- `std::to_string` of an integer. -/
def toText (i : ℤ) : Bytes :=
  if i < 0 then 45 :: Numeral.toDecimal i.natAbs else Numeral.toDecimal i.natAbs

/-- One more than the largest `size_t`. -/
def sizeMod : ℕ := 2 ^ 64

/-- A `std::string` holds fewer bytes than this (`max_size()` is below it on every LP64 library). -/
def maxSize : ℕ := 2 ^ 63

/-- The C++ exceptions that the client throws or lets through. -/
inductive Exn where
  /-- `std::runtime_error(what)` -/
  | runtimeError (what : Bytes)
  /-- `std::invalid_argument`, from the number parser named -/
  | invalidArgument (parser : String)
  /-- `std::out_of_range`, from the number parser named -/
  | outOfRange (parser : String)
  /-- `std::length_error`: a container would exceed `max_size()` -/
  | lengthError
  /-- `nlohmann::json::parse_error` -/
  | jsonParseError
  /-- `nlohmann::json::type_error` with its id -/
  | jsonTypeError (id : ℕ)
deriving DecidableEq

/-- A step to which C++ or the precondition of a library function gives no meaning. -/
inductive Undefined where
  /-- the `const` `operator[]` of a JSON object that lacks the key -/
  | missingKey
  /-- the conversion of a floating value outside the range of the integer type -/
  | conversion
deriving DecidableEq

/-- What evaluating an expression ends in. -/
inductive Outcome (α : Type) where
  | ok (a : α)
  | throws (e : Exn)
  /-- undefined behaviour -/
  | undefined (why : Undefined)
  /-- an endless loop -/
  | diverges
  /-- a call that waits for input for ever -/
  | blocked
deriving DecidableEq

namespace Outcome

variable {α β γ : Type}

def bind (x : Outcome α) (f : α → Outcome β) : Outcome β :=
  match x with
  | ok a => f a
  | throws e => throws e
  | undefined why => undefined why
  | diverges => diverges
  | blocked => blocked

instance : Monad Outcome where
  pure := ok
  bind := bind

instance : LawfulMonad Outcome :=
  LawfulMonad.mk' _ (fun x => by cases x <;> rfl) (fun _ _ => rfl)
    (fun x _ _ => by cases x <;> rfl)

@[simp] theorem pure_eq (a : α) : (pure a : Outcome α) = ok a := rfl

@[simp] theorem ok_bind (a : α) (f : α → Outcome β) : (ok a >>= f) = f a := rfl

@[simp] theorem throws_bind (e : Exn) (f : α → Outcome β) : (throws e >>= f) = throws e := rfl

@[simp] theorem map_ok (f : α → β) (a : α) : f <$> (ok a : Outcome α) = ok (f a) := rfl

/-- Runs the stateful step `f` on the value of `x`. -/
def andThen {σ : Type} (x : Outcome α) (f : α → σ → Outcome β × σ) (s : σ) : Outcome β × σ :=
  match x with
  | ok a => f a s
  | throws e => (throws e, s)
  | undefined why => (undefined why, s)
  | diverges => (diverges, s)
  | blocked => (blocked, s)

@[simp] theorem ok_andThen {σ : Type} (a : α) (f : α → σ → Outcome β × σ) (s : σ) :
    (ok a).andThen f s = f a s := rfl

/-- A bind that returns, returned at its first step. -/
theorem bind_eq_ok {x : Outcome α} {f : α → Outcome β} {b : β} :
    (x >>= f) = ok b ↔ ∃ a, x = ok a ∧ f a = ok b := by
  cases x with
  | ok a => simp
  | throws e => simp [Bind.bind, bind]
  | undefined why => simp [Bind.bind, bind]
  | diverges => simp [Bind.bind, bind]
  | blocked => simp [Bind.bind, bind]

theorem map_eq_ok {x : Outcome α} {f : α → β} {b : β} : f <$> x = ok b ↔ ∃ a, x = ok a ∧ f a = b := by
  rw [map_eq_pure_bind, bind_eq_ok]
  simp

/-- A bind throws at its first step, or behind a first step that returns. -/
theorem bind_throws_iff {x : Outcome α} {f : α → Outcome β} :
    (∃ e, (x >>= f) = throws e) ↔ (∃ e, x = throws e) ∨ ∃ a, x = ok a ∧ ∃ e, f a = throws e := by
  cases x with
  | ok a => simp
  | throws e => simp
  | undefined why => simp [Bind.bind, bind]
  | diverges => simp [Bind.bind, bind]
  | blocked => simp [Bind.bind, bind]

theorem map_throws_iff {x : Outcome α} {f : α → β} : (∃ e, f <$> x = throws e) ↔ ∃ e, x = throws e := by
  rw [map_eq_pure_bind, bind_throws_iff]
  simp

/-- `mapM` of steps that all return. -/
theorem mapM_ok {f : α → Outcome β} {g : α → β} {xs : List α} (h : ∀ x ∈ xs, f x = ok (g x)) :
    xs.mapM f = ok (xs.map g) := by
  induction xs with
  | nil => rfl
  | cons x xs ih =>
    rw [List.mapM_cons, h x (by simp), ok_bind, ih fun y hy => h y (by simp [hy])]
    rfl

/-- `mapM` against a list of the results. -/
theorem mapM_forall₂ {f : α → Outcome β} {xs : List α} {ys : List β}
    (h : List.Forall₂ (fun x y => f x = ok y) xs ys) : xs.mapM f = ok ys := by
  induction h with
  | nil => rfl
  | cons hxy _ ih =>
    rw [List.mapM_cons, hxy, ok_bind, ih]
    rfl

/-- `mapM` over a numbered list, against a list of the results. -/
theorem mapM_zipIdx {f : α × ℕ → Outcome β} {R : α → γ → Prop} {g : γ → β} {xs : List α}
    {ys : List γ} (hR : List.Forall₂ R xs ys) (k : ℕ)
    (h : ∀ j x y, R x y → ys[j]? = some y → f (x, k + j) = ok (g y)) :
    (xs.zipIdx k).mapM f = ok (ys.map g) := by
  induction hR generalizing k with
  | nil => rfl
  | @cons x y xs ys hxy _ ih =>
    have htail := ih (k + 1) fun j x y hxy hj => by
      rw [Nat.add_assoc, Nat.add_comm 1 j]
      exact h (j + 1) x y hxy hj
    have hhead : f (x, k) = ok (g y) := h 0 x y hxy rfl
    rw [List.zipIdx_cons, List.mapM_cons, hhead, ok_bind, htail]
    rfl

/-- `mapM` fails as soon as one step fails. -/
theorem mapM_ne_ok {f : α → Outcome β} {xs : List α} {x : α} (hx : x ∈ xs)
    (h : ∀ b, f x ≠ ok b) (bs : List β) : xs.mapM f ≠ ok bs := by
  induction xs generalizing bs with
  | nil => simp at hx
  | cons y ys ih =>
    rw [List.mapM_cons]
    intro hc
    obtain ⟨b, hb, hrest⟩ := bind_eq_ok.mp hc
    obtain ⟨bs', hbs, -⟩ := bind_eq_ok.mp hrest
    rcases List.mem_cons.mp hx with rfl | hx
    · exact h b hb
    · exact ih hx bs' hbs

/-- **Where `mapM` stops**: it returns the results of all steps, or what the first step that does not
return ends in. -/
theorem mapM_cases (f : α → Outcome β) (xs : List α) :
    (∃ bs, xs.mapM f = ok bs ∧ List.Forall₂ (fun x b => f x = ok b) xs bs) ∨
    ∃ before x after bs, xs = before ++ x :: after ∧ before.mapM f = ok bs ∧ (∀ b, f x ≠ ok b) ∧
      xs.mapM f = (fun _ => []) <$> f x := by
  induction xs with
  | nil => exact .inl ⟨[], rfl, .nil⟩
  | cons y ys ih =>
    by_cases hy : ∃ b, f y = ok b
    · obtain ⟨b, hb⟩ := hy
      rcases ih with ⟨bs, hbs, hall⟩ | ⟨before, x, after, bs, rfl, hbefore, hx, hstop⟩
      · refine .inl ⟨b :: bs, ?_, .cons hb hall⟩
        rw [List.mapM_cons, hb, ok_bind, hbs]
        rfl
      · refine .inr ⟨y :: before, x, after, b :: bs, rfl, ?_, hx, ?_⟩
        · rw [List.mapM_cons, hb, ok_bind, hbefore]
          rfl
        · rw [List.mapM_cons, hb, ok_bind, hstop]
          cases hfx : f x with
          | ok c => exact absurd hfx (hx c)
          | _ => rfl
    · refine .inr ⟨[], y, ys, [], rfl, rfl, fun b hb => hy ⟨b, hb⟩, ?_⟩
      rw [List.mapM_cons]
      cases hfy : f y with
      | ok b => exact absurd ⟨b, hfy⟩ hy
      | _ => rfl

theorem mapM_ok_iff {f : α → Outcome β} {xs : List α} :
    (∃ bs, xs.mapM f = ok bs) ↔ ∀ x ∈ xs, ∃ b, f x = ok b := by
  constructor
  · rintro ⟨bs, hbs⟩ x hx
    by_contra hnot
    exact mapM_ne_ok hx (fun b hb => hnot ⟨b, hb⟩) bs hbs
  · intro hall
    rcases mapM_cases f xs with ⟨bs, hbs, -⟩ | ⟨before, x, after, -, rfl, -, hx, -⟩
    · exact ⟨bs, hbs⟩
    · obtain ⟨b, hb⟩ := hall x (by simp)
      exact absurd hb (hx b)

theorem mapM_throws_iff {f : α → Outcome β} {xs : List α} : (∃ e, xs.mapM f = throws e) ↔
    ∃ before x after, xs = before ++ x :: after ∧ (∀ y ∈ before, ∃ b, f y = ok b) ∧ ∃ e, f x = throws e := by
  constructor
  · rintro ⟨e, he⟩
    rcases mapM_cases f xs with ⟨bs, hbs, -⟩ | ⟨before, x, after, bs, hsplit, hbefore, -, hstop⟩
    · rw [hbs] at he
      cases he
    · rw [hstop] at he
      refine ⟨before, x, after, hsplit, mapM_ok_iff.mp ⟨bs, hbefore⟩, ?_⟩
      cases hx : f x with
      | throws e' => exact ⟨e', rfl⟩
      | _ => rw [hx] at he; cases he
  · rintro ⟨before, x, after, rfl, hbefore, e, he⟩
    obtain ⟨bs, hbs⟩ := mapM_ok_iff.mpr hbefore
    refine ⟨e, ?_⟩
    rw [List.mapM_append, hbs, ok_bind, List.mapM_cons, he]
    rfl

/-- **A loop invariant for `foldlM`** that every step which returns keeps. -/
theorem foldlM_keeps {σ : Type} {f : σ → α → Outcome σ} {P : σ → Prop}
    (hstep : ∀ s x s', f s x = ok s' → P s → P s') {xs : List α} {s s' : σ}
    (h : xs.foldlM f s = ok s') (hs : P s) : P s' := by
  induction xs generalizing s with
  | nil =>
    cases h
    exact hs
  | cons x xs ih =>
    rw [List.foldlM_cons] at h
    obtain ⟨s₁, hx, h⟩ := bind_eq_ok.mp h
    exact ih h (hstep s x s₁ hx hs)

/-- `foldlM` throws where its first step that does not return throws. -/
theorem foldlM_throws_iff {σ : Type} {f : σ → α → Outcome σ} {xs : List α} {s : σ} :
    (∃ e, xs.foldlM f s = throws e) ↔ ∃ before x after s', xs = before ++ x :: after ∧
      before.foldlM f s = ok s' ∧ ∃ e, f s' x = throws e := by
  constructor
  · rintro ⟨e, he⟩
    induction xs generalizing s with
    | nil => cases he
    | cons x xs ih =>
      rw [List.foldlM_cons] at he
      cases hx : f s x with
      | ok s₁ =>
        rw [hx, ok_bind] at he
        obtain ⟨before, y, after, s', rfl, hbefore, hy⟩ := ih he
        refine ⟨x :: before, y, after, s', rfl, ?_, hy⟩
        rw [List.foldlM_cons, hx, ok_bind, hbefore]
      | throws e' => exact ⟨[], x, xs, s, rfl, rfl, e', hx⟩
      | _ => rw [hx] at he; cases he
  · rintro ⟨before, x, after, s', rfl, hbefore, e, he⟩
    refine ⟨e, ?_⟩
    rw [List.foldlM_append, hbefore, ok_bind, List.foldlM_cons, he]
    rfl

/-! ### Evaluations that come to an end -/

/-- The evaluation returns or throws. -/
def ComesBack (x : Outcome α) : Prop := (∃ a, x = ok a) ∨ ∃ e, x = throws e

/-- The evaluation returns or throws; converting a number is taken to return. -/
def Settles (x : Outcome α) : Prop :=
  (∃ a, x = ok a) ∨ (∃ e, x = throws e) ∨ x = undefined .conversion

@[simp] theorem settles_ok (a : α) : (ok a).Settles := .inl ⟨a, rfl⟩

@[simp] theorem settles_throws (e : Exn) : (throws e : Outcome α).Settles := .inr (.inl ⟨e, rfl⟩)

@[simp] theorem settles_conversion : (undefined .conversion : Outcome α).Settles := .inr (.inr rfl)

@[simp] theorem not_settles_missingKey : ¬ (undefined .missingKey : Outcome α).Settles := by
  rintro (⟨a, h⟩ | ⟨e, h⟩ | h) <;> cases h

theorem settles_bind {x : Outcome α} {f : α → Outcome β} (hx : x.Settles)
    (hf : ∀ a, x = ok a → (f a).Settles) : (x >>= f).Settles := by
  rcases hx with ⟨a, rfl⟩ | ⟨e, rfl⟩ | rfl
  · exact hf a rfl
  · exact settles_throws e
  · exact settles_conversion

theorem settles_map_iff {x : Outcome α} (f : α → β) : (f <$> x).Settles ↔ x.Settles := by
  cases x with
  | undefined why => cases why <;> simp [Functor.map, bind, Settles]
  | _ => simp [Functor.map, bind, Settles]

theorem settles_ite {p : Prop} [Decidable p] {x y : Outcome α} (hx : x.Settles) (hy : y.Settles) :
    (if p then x else y).Settles := by
  split_ifs
  · exact hx
  · exact hy

/-- `mapM` comes to an end unless a step behind steps that return does not. -/
theorem settles_mapM_iff {f : α → Outcome β} {xs : List α} : (xs.mapM f).Settles ↔
    ∀ before x after, xs = before ++ x :: after → (∀ y ∈ before, ∃ b, f y = ok b) → (f x).Settles := by
  constructor
  · rintro h before x after rfl hbefore
    obtain ⟨bs, hbs⟩ := mapM_ok_iff.mpr hbefore
    rw [List.mapM_append, hbs, ok_bind, List.mapM_cons] at h
    cases hx : f x with
    | ok b => exact settles_ok b
    | throws e => exact settles_throws e
    | undefined why =>
      rw [hx] at h
      cases why with
      | missingKey => exact absurd h not_settles_missingKey
      | conversion => exact settles_conversion
    | diverges => rw [hx] at h; rcases h with ⟨a, h⟩ | ⟨e, h⟩ | h <;> cases h
    | blocked => rw [hx] at h; rcases h with ⟨a, h⟩ | ⟨e, h⟩ | h <;> cases h
  · intro h
    rcases mapM_cases f xs with ⟨bs, hbs, -⟩ | ⟨before, x, after, bs, hsplit, hbefore, -, hstop⟩
    · rw [hbs]
      exact settles_ok bs
    · rw [hstop, settles_map_iff]
      exact h before x after hsplit (mapM_ok_iff.mp ⟨bs, hbefore⟩)

theorem settles_foldlM {σ : Type} {f : σ → α → Outcome σ} (hf : ∀ s x, (f s x).Settles) (xs : List α)
    (s : σ) : (xs.foldlM f s).Settles := by
  induction xs generalizing s with
  | nil => exact settles_ok s
  | cons x xs ih =>
    rw [List.foldlM_cons]
    exact settles_bind (hf s x) fun s' _ => ih s'

end Outcome

/-- `throw std::runtime_error(what)` -/
def throwRuntime {α : Type} (what : Bytes) : Outcome α := .throws (.runtimeError what)

/-! ### Number parsers of the standard library -/

/-- `std::stol(s)`: base 10, 64-bit `long`. -/
def stol (s : Bytes) : Outcome ℤ :=
  match Numeral.readInt 10 s with
  | none => .throws (.invalidArgument "stol")
  | some (neg, n) =>
    let v : ℤ := if neg then -n else n
    if -2 ^ 63 ≤ v ∧ v < 2 ^ 63 then .ok v else .throws (.outOfRange "stol")

/-- `std::stoi(s)`: base 10, 32-bit `int`. -/
def stoi (s : Bytes) : Outcome ℤ :=
  match Numeral.readInt 10 s with
  | none => .throws (.invalidArgument "stoi")
  | some (neg, n) =>
    let v : ℤ := if neg then -n else n
    if -2 ^ 31 ≤ v ∧ v < 2 ^ 31 then .ok v else .throws (.outOfRange "stoi")

/-- `std::stoul(s, nullptr, 16)`: a minus sign negates modulo `2 ^ 64`. -/
def stoul16 (s : Bytes) : Outcome ℕ :=
  match Numeral.readInt 16 s with
  | none => .throws (.invalidArgument "stoul")
  | some (neg, n) =>
    if n < sizeMod then .ok (if neg then (sizeMod - n) % sizeMod else n)
    else .throws (.outOfRange "stoul")

/-- `std::stoi` returns a number or throws one of two exceptions. -/
theorem stoi_cases (s : Bytes) : (∃ n, stoi s = .ok n) ∨
    ∃ e, stoi s = .throws e ∧ (e = .invalidArgument "stoi" ∨ e = .outOfRange "stoi") := by
  unfold stoi
  cases Numeral.readInt 10 s with
  | none => exact .inr ⟨_, rfl, .inl rfl⟩
  | some r =>
    dsimp only
    generalize (if r.1 = true then -(r.2 : ℤ) else r.2) = v
    by_cases hrange : -2 ^ 31 ≤ v ∧ v < 2 ^ 31
    · exact .inl ⟨v, if_pos hrange⟩
    · exact .inr ⟨_, if_neg hrange, .inr rfl⟩

theorem stol_of_readInt {s : Bytes} {n : ℕ} (h : Numeral.readInt 10 s = some (false, n)) :
    stol s = if n < 2 ^ 63 then .ok (n : ℤ) else .throws (.outOfRange "stol") := by
  simp only [stol, h, Bool.false_eq_true, if_false]
  split_ifs <;> first | rfl | omega

theorem stoul16_of_readInt {s : Bytes} {n : ℕ} (h : Numeral.readInt 16 s = some (false, n))
    (hn : n < sizeMod) : stoul16 s = .ok n := by
  simp [stoul16, h, hn]

end KserveClient
