import Mathlib.Data.List.Infix
import Mathlib.Data.List.TakeWhile

/-!
# ListSearch — first occurrence of a pattern in a list

`find pat s` is the first index at which `pat` begins in `s`, and `findFrom pat s k` the first one
that is `≥ k` (the meaning of a `find(pat, pos)` of a string class).  An occurrence is kept when the
text is extended on the right (`find_append`), and a prefix of the text that contains the first
occurrence finds the same one (`find_restrict`): these two decide what a reader that receives a text
piece by piece can see.  `find_skip` walks over a stretch in which the pattern cannot start.
`behind pat s` is what stands behind the first occurrence; the text is taken apart at letters that the
pattern does not have (`behind_append_cons`) or has only at its end (`behind_mark`).
-/

namespace ListSearch

variable {α : Type} [DecidableEq α]

/-- The first index at which `pat` begins in `s`. -/
def find (pat : List α) : List α → Option ℕ
  | [] => if pat = [] then some 0 else none
  | a :: s => if pat <+: a :: s then some 0 else (find pat s).map (· + 1)

/-- The first index `≥ start` at which `pat` begins in `s`. -/
def findFrom (pat s : List α) (start : ℕ) : Option ℕ :=
  if start ≤ s.length then (find pat (s.drop start)).map (· + start) else none

variable {pat s t : List α}

theorem find_of_isPrefix (h : pat <+: s) : find pat s = some 0 := by
  cases s with
  | nil => simp [find, List.prefix_nil.mp h]
  | cons a s => simp [find, h]

theorem find_cons_of_not {a : α} (h : ¬ pat <+: a :: s) :
    find pat (a :: s) = (find pat s).map (· + 1) := by
  rw [find, if_neg h]

/-- The index found is an occurrence, and no smaller index is one. -/
theorem find_eq_some_iff {i : ℕ} :
    find pat s = some i ↔ pat <+: s.drop i ∧ i ≤ s.length ∧ ∀ j < i, ¬ pat <+: s.drop j := by
  induction s generalizing i with
  | nil =>
    by_cases hp : pat = []
    · simp only [find, if_pos hp, Option.some.injEq, List.drop_nil, List.length_nil]
      constructor
      · rintro rfl
        exact ⟨by simp [hp], le_rfl, by simp⟩
      · rintro ⟨-, h, -⟩
        omega
    · simp [find, hp]
  | cons a s ih =>
    by_cases hp : pat <+: a :: s
    · rw [find, if_pos hp]
      constructor
      · rintro ⟨⟩
        exact ⟨hp, by simp, by simp⟩
      · rintro ⟨-, -, h⟩
        cases i with
        | zero => rfl
        | succ i => exact absurd hp (h 0 (by omega))
    · rw [find_cons_of_not hp]
      cases i with
      | zero =>
        constructor
        · intro h
          obtain ⟨j, -, hj⟩ := Option.map_eq_some_iff.mp h
          omega
        · rintro ⟨h, -, -⟩
          exact absurd h hp
      | succ i =>
        have hmap : (find pat s).map (· + 1) = some (i + 1) ↔ find pat s = some i := by
          cases find pat s <;> simp
        rw [hmap, ih]
        constructor
        · rintro ⟨h1, h2, h3⟩
          refine ⟨h1, by simpa using h2, fun j hj => ?_⟩
          cases j with
          | zero => exact hp
          | succ j => exact h3 j (by omega)
        · rintro ⟨h1, h2, h3⟩
          exact ⟨h1, by simpa using h2, fun j hj => h3 (j + 1) (by omega)⟩

theorem find_eq_none_iff : find pat s = none ↔ ¬ pat <:+: s := by
  induction s with
  | nil => by_cases hp : pat = [] <;> simp [find, hp]
  | cons a s ih =>
    by_cases hp : pat <+: a :: s
    · simp [find, hp, hp.isInfix]
    · rw [find_cons_of_not hp, Option.map_eq_none_iff, ih, List.infix_cons_iff]
      simp [hp]

theorem find_isSome_iff : (find pat s).isSome ↔ pat <:+: s := by
  rw [← not_iff_not, ← find_eq_none_iff]
  simp

/-- An occurrence ends inside the text. -/
theorem find_add_length_le {i : ℕ} (h : find pat s = some i) : i + pat.length ≤ s.length := by
  obtain ⟨h1, h2, -⟩ := find_eq_some_iff.mp h
  have := h1.length_le
  rw [List.length_drop] at this
  omega

theorem find_split {i : ℕ} (h : find pat s = some i) :
    s = s.take i ++ pat ++ s.drop (i + pat.length) := by
  obtain ⟨⟨t, ht⟩, -, -⟩ := find_eq_some_iff.mp h
  have hd : s.drop (i + pat.length) = t := by
    rw [← List.drop_drop, ← ht, List.drop_left]
  rw [hd, List.append_assoc, ht, List.take_append_drop]

omit [DecidableEq α] in
theorem prefix_drop_append {j : ℕ} (hj : j ≤ s.length) (h : pat <+: s.drop j) :
    pat <+: (s ++ t).drop j := by
  rw [List.drop_append_of_le_length hj]
  exact h.trans (List.prefix_append _ _)

omit [DecidableEq α] in
theorem prefix_drop_of_append {j : ℕ} (hj : j + pat.length ≤ s.length)
    (h : pat <+: (s ++ t).drop j) : pat <+: s.drop j := by
  rw [List.drop_append_of_le_length (by omega)] at h
  exact List.prefix_of_prefix_length_le h (List.prefix_append _ _) (by rw [List.length_drop]; omega)

/-- **Extension**: more text on the right does not change the first occurrence. -/
theorem find_append {i : ℕ} (h : find pat s = some i) : find pat (s ++ t) = some i := by
  have hl := find_add_length_le h
  obtain ⟨h1, h2, h3⟩ := find_eq_some_iff.mp h
  refine find_eq_some_iff.mpr ⟨prefix_drop_append h2 h1, by simp; omega, fun j hj hp => ?_⟩
  exact h3 j hj (prefix_drop_of_append (by omega) hp)

/-- **Restriction**: a prefix that reaches past the first occurrence finds the same one. -/
theorem find_restrict {i : ℕ} (hs : s <+: t) (h : find pat t = some i)
    (hi : i + pat.length ≤ s.length) : find pat s = some i := by
  obtain ⟨u, rfl⟩ := hs
  obtain ⟨h1, h2, h3⟩ := find_eq_some_iff.mp h
  refine find_eq_some_iff.mpr ⟨prefix_drop_of_append hi h1, by omega, fun j hj hp => ?_⟩
  exact h3 j hj (prefix_drop_append (by omega) hp)

/-- The stretch before the first occurrence does not contain the pattern. -/
theorem not_infix_take {i : ℕ} (hpat : pat ≠ []) (h : find pat s = some i) : ¬ pat <:+: s.take i := by
  intro hin
  obtain ⟨j, hj⟩ := Option.isSome_iff_exists.mp (find_isSome_iff.mpr hin)
  have hlen := find_add_length_le hj
  have hsame := find_append (t := s.drop i) hj
  rw [List.take_append_drop, h, Option.some.injEq] at hsame
  rw [List.length_take, hsame] at hlen
  have hpos := List.length_pos_of_ne_nil hpat
  omega

theorem find_restrict_iff {i : ℕ} (hs : s <+: t) (h : find pat t = some i) :
    (find pat s).isSome ↔ i + pat.length ≤ s.length := by
  constructor
  · intro hsome
    obtain ⟨j, hj⟩ := Option.isSome_iff_exists.mp hsome
    obtain ⟨u, rfl⟩ := hs
    have hji : some j = some i := by rw [← find_append hj, h]
    cases hji
    exact find_add_length_le hj
  · intro hi
    rw [find_restrict hs h hi]
    rfl

theorem find_restrict_none (hs : s <+: t) (h : find pat t = none) : find pat s = none := by
  rw [find_eq_none_iff] at h ⊢
  exact fun hc => h (hc.trans hs.isInfix)

/-- **Skipping**: the pattern cannot start in a stretch that does not contain its first letter. -/
theorem find_skip {a : α} {pat' : List α} (l : List α) (h : a ∉ l) :
    find (a :: pat') (l ++ t) = (find (a :: pat') t).map (· + l.length) := by
  induction l with
  | nil => simp
  | cons b l ih =>
    have hb : ¬ (a :: pat') <+: b :: (l ++ t) := by
      rw [List.cons_prefix_cons]
      rintro ⟨rfl, -⟩
      simp at h
    rw [List.cons_append, find_cons_of_not hb, ih (fun hm => h (List.mem_cons_of_mem _ hm)),
      Option.map_map]
    rfl

/-- A single letter is found where it first stands. -/
theorem find_letter {a : α} {l : List α} (h : a ∉ l) : find [a] (l ++ a :: t) = some l.length := by
  have hhead : find [a] (a :: t) = some 0 := find_of_isPrefix ⟨t, rfl⟩
  rw [find_skip l h, hhead, Option.map_some, Nat.zero_add]

theorem find_letter_eq_none {a : α} (h : a ∉ s) : find [a] s = none := by
  rw [find_eq_none_iff]
  exact fun hin => h (hin.subset (List.mem_singleton_self a))

/-- **A pair of different letters** is found behind a stretch that does not contain it. -/
theorem find_pair {a b : α} (hab : a ≠ b) {l : List α} (h : ¬ [a, b] <:+: l) :
    find [a, b] (l ++ a :: b :: t) = some l.length := by
  induction l with
  | nil => exact find_of_isPrefix ⟨t, rfl⟩
  | cons c l ih =>
    rw [List.infix_cons_iff, not_or] at h
    have hstart : ¬ [a, b] <+: c :: (l ++ a :: b :: t) := by
      cases l with
      | nil => simp [Ne.symm hab]
      | cons d l => exact fun hp => h.1 (by simpa using hp)
    rw [List.cons_append, find_cons_of_not hstart, ih h.2]
    rfl

theorem findFrom_append_left (l : List α) :
    findFrom pat (l ++ t) l.length = (find pat t).map (· + l.length) := by
  simp [findFrom]

theorem findFrom_add_length_le {k i : ℕ} (h : findFrom pat s k = some i) :
    k ≤ i ∧ i + pat.length ≤ s.length := by
  rw [findFrom] at h
  split_ifs at h with hk
  obtain ⟨j, hj, rfl⟩ := Option.map_eq_some_iff.mp h
  have hlen := find_add_length_le hj
  rw [List.length_drop] at hlen
  omega

theorem findFrom_restrict_isSome_iff {k i : ℕ} (hs : s <+: t) (hk : k ≤ s.length)
    (h : findFrom pat t k = some i) : (findFrom pat s k).isSome ↔ i + pat.length ≤ s.length := by
  have hkt : k ≤ t.length := hk.trans hs.length_le
  rw [findFrom, if_pos hkt] at h
  obtain ⟨j, hj, rfl⟩ := Option.map_eq_some_iff.mp h
  rw [findFrom, if_pos hk, Option.isSome_map, find_restrict_iff (hs.drop k) hj, List.length_drop]
  omega

theorem findFrom_restrict_none {k : ℕ} (hs : s <+: t) (h : findFrom pat t k = none) :
    findFrom pat s k = none := by
  unfold findFrom at h ⊢
  by_cases hk : k ≤ s.length
  · rw [if_pos (hk.trans hs.length_le), Option.map_eq_none_iff] at h
    rw [if_pos hk, Option.map_eq_none_iff]
    exact find_restrict_none (hs.drop k) h
  · rw [if_neg hk]

/-! ### The text behind an occurrence -/

/-- What stands behind the first occurrence of `pat`. -/
def behind (pat s : List α) : Option (List α) := (find pat s).map fun i => s.drop (i + pat.length)

theorem behind_isSome_iff : (behind pat s).isSome ↔ pat <:+: s := by
  rw [behind, Option.isSome_map, find_isSome_iff]

theorem behind_of_isPrefix (t : List α) : behind pat (pat ++ t) = some t := by
  rw [behind, find_of_isPrefix (List.prefix_append pat t), Option.map_some, Nat.zero_add, List.drop_left]

theorem behind_cons_of_not {a : α} (h : ¬ pat <+: a :: s) : behind pat (a :: s) = behind pat s := by
  rw [behind, find_cons_of_not h, Option.map_map, behind]
  congr 1
  funext i
  show (a :: s).drop (i + 1 + pat.length) = s.drop (i + pat.length)
  rw [Nat.add_right_comm, List.drop_succ_cons]

theorem behind_skip {a : α} {pat' : List α} (l : List α) (h : a ∉ l) :
    behind (a :: pat') (l ++ t) = behind (a :: pat') t := by
  rw [behind, find_skip l h, Option.map_map, behind]
  congr 1
  funext i
  show (l ++ t).drop (i + l.length + (a :: pat').length) = t.drop (i + (a :: pat').length)
  rw [Nat.add_right_comm, Nat.add_comm, ← List.drop_drop, List.drop_left]

omit [DecidableEq α] in
/-- A letter that a pattern does not have stops it. -/
theorem isPrefix_append_cons_iff {a : α} (h : a ∉ pat) : pat <+: s ++ a :: t ↔ pat <+: s := by
  refine ⟨fun hp => ?_, fun hp => hp.trans (List.prefix_append _ _)⟩
  rcases List.prefix_or_prefix_of_prefix hp (List.prefix_append s (a :: t)) with hs | ⟨u, rfl⟩
  · exact hs
  · rw [List.prefix_append_right_inj] at hp
    cases u with
    | nil => rw [List.append_nil]
    | cons b u =>
      obtain ⟨rfl, -⟩ := List.cons_prefix_cons.mp hp
      exact absurd (by simp) h

theorem behind_nil (hne : pat ≠ []) : behind pat [] = none := by
  rw [behind, find, if_neg hne, Option.map_none]

theorem behind_cons_of_not_mem {a : α} (hne : pat ≠ []) (h : a ∉ pat) (t : List α) :
    behind pat (a :: t) = behind pat t := by
  refine behind_cons_of_not fun hp => hne ?_
  rwa [← List.nil_append (a :: t), isPrefix_append_cons_iff h, List.prefix_nil] at hp

/-- **Up to a letter that the pattern does not have**, or else behind it. -/
theorem behind_append_cons {a : α} (hne : pat ≠ []) (h : a ∉ pat) (s t : List α) :
    behind pat (s ++ a :: t) =
      match behind pat s with
      | some u => some (u ++ a :: t)
      | none => behind pat t := by
  induction s with
  | nil => rw [List.nil_append, behind_cons_of_not_mem hne h, behind_nil hne]
  | cons b s ih =>
    by_cases hp : pat <+: b :: s
    · obtain ⟨u, hu⟩ := hp
      rw [← hu, behind_of_isPrefix, List.append_assoc, behind_of_isPrefix]
    · have hp' : ¬ pat <+: b :: (s ++ a :: t) := fun hpre => hp ((isPrefix_append_cons_iff h).mp hpre)
      rw [List.cons_append, behind_cons_of_not hp', behind_cons_of_not hp, ih]

theorem infix_append_cons_iff {a : α} (hne : pat ≠ []) (h : a ∉ pat) :
    pat <:+: s ++ a :: t ↔ pat <:+: s ∨ pat <:+: t := by
  rw [← behind_isSome_iff, ← behind_isSome_iff, ← behind_isSome_iff, behind_append_cons hne h]
  cases behind pat s with
  | some u => simp
  | none => simp

omit [DecidableEq α] in
/-- The first mark of a text splits it. -/
theorem append_mark_inj {c : α} {u v : List α} (hs : c ∉ s) (ht : c ∉ t) (h : s ++ c :: u = t ++ c :: v) :
    s = t ∧ u = v := by
  rcases List.append_eq_append_iff.mp h with ⟨w, rfl, hw⟩ | ⟨w, rfl, hw⟩
  · cases w with
    | nil => simpa using hw
    | cons b w =>
      obtain ⟨rfl, -⟩ := List.cons_eq_cons.mp hw
      exact absurd (by simp) ht
  · cases w with
    | nil => simpa [eq_comm] using hw
    | cons b w =>
      obtain ⟨rfl, -⟩ := List.cons_eq_cons.mp hw
      exact absurd (by simp) hs

omit [DecidableEq α] in
theorem isPrefix_mark_iff {c : α} {key name : List α} (hkey : c ∉ key) (hname : c ∉ name) (value : List α) :
    key ++ [c] <+: name ++ c :: value ↔ key = name := by
  constructor
  · rintro ⟨t, ht⟩
    rw [List.append_assoc, List.singleton_append] at ht
    exact (append_mark_inj hkey hname ht).1
  · rintro rfl
    exact ⟨value, by simp⟩

/-- **A key with its mark** stands at the end of the name before the first mark, or else behind that. -/
theorem behind_mark {c : α} {key name : List α} (hkey : c ∉ key) (hname : c ∉ name) (value : List α) :
    behind (key ++ [c]) (name ++ c :: value) =
      if key <:+ name then some value else behind (key ++ [c]) value := by
  induction name with
  | nil =>
    by_cases hk : key = []
    · subst hk
      rw [if_pos (List.suffix_refl _)]
      exact behind_of_isPrefix value
    · have hstart : ¬ key ++ [c] <+: c :: value := fun hp =>
        hk ((isPrefix_mark_iff hkey List.not_mem_nil value).mp hp)
      rw [List.nil_append, behind_cons_of_not hstart, if_neg fun hs => hk (List.suffix_nil.mp hs)]
  | cons b name ih =>
    by_cases hk : key = b :: name
    · subst hk
      have hsplit : b :: name ++ c :: value = b :: name ++ [c] ++ value := by simp
      rw [hsplit, behind_of_isPrefix, if_pos (List.suffix_refl _)]
    · have hstart : ¬ key ++ [c] <+: b :: (name ++ c :: value) := fun hp =>
        hk ((isPrefix_mark_iff hkey hname value).mp hp)
      rw [List.cons_append, behind_cons_of_not hstart, ih fun hc => hname (List.mem_cons_of_mem _ hc)]
      simp only [List.suffix_cons_iff, hk, false_or]

theorem infix_cons_iff_of_not_mem {a : α} (hne : pat ≠ []) (h : a ∉ pat) : pat <:+: a :: t ↔ pat <:+: t := by
  rw [← behind_isSome_iff, behind_cons_of_not_mem hne h, behind_isSome_iff]

omit [DecidableEq α] in
/-- **A pattern with a mark** stands across the first mark of a text, or behind it. -/
theorem infix_mark_iff {c : α} {key rest name value : List α} (hkey : c ∉ key) (hname : c ∉ name) :
    key ++ c :: rest <:+: name ++ c :: value ↔
      (key <:+ name ∧ rest <+: value) ∨ key ++ c :: rest <:+: value := by
  constructor
  · rintro ⟨u, v, h⟩
    by_cases hu : c ∈ u
    · -- the first mark is in front of the pattern
      obtain ⟨u₁, u₂, rfl, hu₁⟩ := List.eq_append_cons_of_mem hu
      have hsplit : u₁ ++ c :: u₂ ++ (key ++ c :: rest) ++ v
          = u₁ ++ c :: (u₂ ++ (key ++ c :: rest) ++ v) := by simp
      rw [hsplit] at h
      obtain ⟨-, rfl⟩ := append_mark_inj hu₁ hname h
      exact .inr ⟨u₂, v, rfl⟩
    · -- it is the mark of the pattern
      have hsplit : u ++ (key ++ c :: rest) ++ v = (u ++ key) ++ c :: (rest ++ v) := by simp
      have hmark : c ∉ u ++ key := fun hc => (List.mem_append.mp hc).elim hu hkey
      rw [hsplit] at h
      obtain ⟨rfl, rfl⟩ := append_mark_inj hmark hname h
      exact .inl ⟨⟨u, rfl⟩, ⟨v, rfl⟩⟩
  · rintro (⟨⟨u, rfl⟩, ⟨v, rfl⟩⟩ | ⟨u, v, rfl⟩)
    · exact ⟨u, v, by simp⟩
    · exact ⟨name ++ c :: u, v, by simp⟩

/-! ### Splitting at a letter -/

section Letter

variable {β : Type} [BEq β] [LawfulBEq β] {c : β} {l : List β}

theorem bne_of_not_mem (h : c ∉ l) : ∀ d ∈ l, (d != c) = true := by
  intro d hd
  rw [bne_iff_ne]
  rintro rfl
  exact h hd

theorem takeWhile_letter (h : c ∉ l) (t : List β) : (l ++ c :: t).takeWhile (· != c) = l := by
  rw [List.takeWhile_append_of_pos (bne_of_not_mem h), List.takeWhile_cons_of_neg (by simp),
    List.append_nil]

theorem dropWhile_letter (h : c ∉ l) (t : List β) : (l ++ c :: t).dropWhile (· != c) = c :: t := by
  rw [List.dropWhile_append_of_pos (bne_of_not_mem h), List.dropWhile_cons_of_neg (by simp)]

theorem takeWhile_no_letter (h : c ∉ l) : l.takeWhile (· != c) = l :=
  List.takeWhile_eq_self_iff.mpr (bne_of_not_mem h)

theorem dropWhile_no_letter (h : c ∉ l) : l.dropWhile (· != c) = [] :=
  List.dropWhile_eq_nil_iff.mpr (bne_of_not_mem h)

end Letter

end ListSearch
