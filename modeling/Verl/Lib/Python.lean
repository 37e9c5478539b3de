import Verl.Lib.Numerals

/-!
# The pieces of Python the modelled functions rest on

`PyErr` is the exception a call ends with; a function that may raise returns `Except PyErr`.
`pySorted` is `sorted` with a strict order `lt` (`__lt__`), `pySortedReverse` is
`sorted(..., reverse=True)`; both are stable.  `heappush` / `heappop` keep a heap as the list of
its items: `heappop` takes the least one out.
-/

namespace Verl

open List

/-- The exceptions the modelled code raises. -/
inductive PyErr where
  | assertionError (msg : String)
  | indexError
  | keyError (key : String)
  | valueError (msg : String)
  | zeroDivisionError
  | notImplementedError (msg : String)
  | attributeError (name : String)
  | typeError (msg : String)
  | runtimeError (msg : String)
deriving DecidableEq, Repr

/-- `xs[i]`, for an index that is not negative. -/
def pyGetItem {α : Type} (xs : List α) (i : Nat) : Except PyErr α :=
  match xs[i]? with
  | some x => .ok x
  | none => .error .indexError

variable {α β ε : Type} {ys : List β} {xs : List α} {f : α → Except ε β}

theorem lookup_map_pair (keys : List String) (f : String → α) (key : String) :
    (keys.map fun k => (k, f k)).lookup key = if key ∈ keys then some (f key) else none := by
  induction keys with
  | nil => rfl
  | cons k keys ih =>
    by_cases h : key = k
    · grind
    · grind

theorem pyGetItem_eq_ok {i : Nat} {x : α} : pyGetItem xs i = .ok x ↔ xs[i]? = some x := by
  unfold pyGetItem
  cases xs[i]? with
  | none => constructor <;> (intro h; cases h)
  | some y => exact ⟨fun h => congrArg some (Except.ok.inj h), fun h => congrArg Except.ok
      (Option.some.inj h)⟩

theorem pyGetItem_modify (xs : List α) (i j : Nat) (f : α → α) :
    pyGetItem (xs.modify i f) j = (pyGetItem xs j).map fun x => if i = j then f x else x := by
  unfold pyGetItem
  rw [getElem?_modify]
  cases xs[j]? with
  | none => rfl
  | some x => by_cases h : i = j <;> simp [Except.map]

/-- `a // b`, of numbers that are not negative. -/
def floorDiv (a b : Nat) : Except PyErr Nat :=
  if b = 0 then .error .zeroDivisionError else .ok (a / b)

theorem floorDiv_of_pos {b : Nat} (a : Nat) (h : 0 < b) : floorDiv a b = .ok (a / b) :=
  if_neg (Nat.ne_of_gt h)

/-- `assert c, msg`. -/
def pyAssert (c : Bool) (msg : String) : Except PyErr Unit :=
  if c then .ok () else .error (.assertionError msg)

@[simp] theorem pyAssert_true (msg : String) : pyAssert true msg = .ok () := rfl

@[simp] theorem pyAssert_false (msg : String) :
    pyAssert false msg = .error (.assertionError msg) := rfl

@[simp] theorem ok_bind (a : α) (f : α → Except ε β) : (Except.ok a >>= f) = f a := rfl

@[simp] theorem except_error_bind (e : ε) (f : α → Except ε β) :
    (Except.error e >>= f) = .error e := rfl

theorem bind_eq_ok {x : Except ε α} {r : β} :
    x >>= f = .ok r ↔ ∃ a, x = .ok a ∧ f a = .ok r := by
  cases x with
  | error e =>
    constructor
    · intro h; cases h
    · rintro ⟨a, h, -⟩; cases h
  | ok a =>
    constructor
    · intro h; exact ⟨a, rfl, h⟩
    · rintro ⟨b, hb, h⟩; cases hb; exact h

theorem except_map_eq_ok {x : Except ε α} {f : α → β} {r : β} :
    x.map f = .ok r ↔ ∃ a, x = .ok a ∧ f a = r := by
  cases x with
  | error e =>
    constructor
    · intro h; cases h
    · rintro ⟨a, h, -⟩; cases h
  | ok a =>
    constructor
    · intro h; exact ⟨a, rfl, Except.ok.inj h⟩
    · rintro ⟨b, hb, h⟩; cases hb; exact congrArg Except.ok h

theorem pyAssert_eq_ok {c : Bool} {msg : String} {u : Unit} :
    pyAssert c msg = .ok u ↔ c = true := by
  cases c with
  | false => constructor <;> (intro h; cases h)
  | true => exact ⟨fun _ => rfl, fun _ => rfl⟩

theorem mapIdx_map_range (piece : Nat → α) (g : Nat → α → β) (k : Nat) :
    ((range k).map piece).mapIdx g = (range k).map fun i => g i (piece i) := by
  apply ext_getElem
  · simp
  · intro i h1 h2
    simp

theorem mapM_eq_ok_map (f : α → Except ε β) (g : α → β) (xs : List α)
    (h : ∀ a ∈ xs, f a = .ok (g a)) : xs.mapM f = .ok (xs.map g) := by
  induction xs with
  | nil => rfl
  | cons a xs ih =>
    rw [mapM_cons, h a mem_cons_self, ih fun b hb => h b (mem_cons_of_mem _ hb)]
    rfl

theorem mapM_eq_ok_of_forall₂
    (h : Forall₂ (fun a b => f a = .ok b) xs ys) : xs.mapM f = .ok ys := by
  induction h with
  | nil => rfl
  | cons hab _ ih =>
    rw [mapM_cons, hab, ih]
    rfl

theorem forall₂_of_mapM_eq_ok
    (h : xs.mapM f = .ok ys) : Forall₂ (fun a b => f a = .ok b) xs ys := by
  induction xs generalizing ys with
  | nil =>
    cases h
    exact .nil
  | cons a xs ih =>
    rw [mapM_cons, bind_eq_ok] at h
    obtain ⟨b, hb, h⟩ := h
    rw [bind_eq_ok] at h
    obtain ⟨bs, hbs, h⟩ := h
    cases h
    exact .cons hb (ih hbs)

theorem exists_of_mapM (h : xs.mapM f = .ok ys) {a : α} (ha : a ∈ xs) : ∃ b, f a = .ok b := by
  have hforall := forall₂_of_mapM_eq_ok h
  clear h
  induction hforall with
  | nil => cases ha
  | @cons x y xs ys hxy _ ih =>
    rcases mem_cons.1 ha with rfl | ha
    · exact ⟨y, hxy⟩
    · exact ih ha

theorem mapM_eq_ok_iff {g : α → β} {P : α → Prop} (h : ∀ a ∈ xs, ∀ b, f a = .ok b ↔ P a ∧ b = g a) :
    xs.mapM f = .ok ys ↔ (∀ a ∈ xs, P a) ∧ ys = xs.map g := by
  constructor
  · intro hys
    have hall : ∀ a ∈ xs, P a := fun a ha => by
      obtain ⟨b, hb⟩ := exists_of_mapM hys ha
      exact ((h a ha b).1 hb).1
    have hmap := mapM_eq_ok_map f g xs fun a ha => (h a ha (g a)).2 ⟨hall a ha, rfl⟩
    exact ⟨hall, Except.ok.inj (hys.symm.trans hmap)⟩
  · rintro ⟨hall, rfl⟩
    exact mapM_eq_ok_map f g xs fun a ha => (h a ha (g a)).2 ⟨hall a ha, rfl⟩

theorem exists_of_forall₂ {R : α → β → Prop}
    (h : Forall₂ R xs ys) {y : β} (hy : y ∈ ys) : ∃ x ∈ xs, R x y := by
  induction h with
  | nil => cases hy
  | cons hhead _ ih =>
    rcases mem_cons.1 hy with rfl | hy
    · exact ⟨_, mem_cons_self, hhead⟩
    · grind

theorem foldlM_eq_ok_foldl (f : β → α → Except ε β) (g : β → α → β) (xs : List α)
    (h : ∀ b, ∀ a ∈ xs, f b a = .ok (g b a)) (b : β) : xs.foldlM f b = .ok (xs.foldl g b) := by
  induction xs generalizing b with
  | nil => rfl
  | cons a xs ih =>
    rw [foldlM_cons, h b a mem_cons_self]
    exact ih (fun b c hc => h b c (mem_cons_of_mem _ hc)) _

theorem exists_of_foldlM {γ : Type} {f : γ → β → Except ε γ} {xs : List β} {s s' : γ}
    (h : xs.foldlM f s = .ok s') {x : β} (hx : x ∈ xs) : ∃ s₁ s₂, f s₁ x = .ok s₂ := by
  induction xs generalizing s with
  | nil => cases hx
  | cons y xs ih =>
    rw [foldlM_cons, bind_eq_ok] at h
    obtain ⟨s₁, hy, hrest⟩ := h
    rcases mem_cons.1 hx with rfl | hx
    · exact ⟨s, s₁, hy⟩
    · exact ih hrest hx

/-- A loop returns when each of its steps would, whatever the state is. -/
theorem exists_foldlM_iff {f : β → α → Except ε β} {P : α → Prop}
    (h : ∀ b, ∀ a ∈ xs, (∃ b', f b a = .ok b') ↔ P a) (b : β) :
    (∃ b', xs.foldlM f b = .ok b') ↔ ∀ a ∈ xs, P a := by
  constructor
  · rintro ⟨b', hb'⟩ a ha
    obtain ⟨b₁, b₂, hstep⟩ := exists_of_foldlM hb' ha
    exact (h b₁ a ha).1 ⟨b₂, hstep⟩
  · intro hall
    induction xs generalizing b with
    | nil => exact ⟨b, rfl⟩
    | cons a xs ih =>
      obtain ⟨b₁, hb₁⟩ := (h b a mem_cons_self).2 (hall a mem_cons_self)
      obtain ⟨b', hb'⟩ := ih (fun b c hc => h b c (mem_cons_of_mem _ hc)) b₁
        fun c hc => hall c (mem_cons_of_mem _ hc)
      refine ⟨b', ?_⟩
      rw [foldlM_cons, hb₁, ok_bind, hb']

theorem exists_mapM_iff : (∃ ys, xs.mapM f = .ok ys) ↔ ∀ a ∈ xs, ∃ b, f a = .ok b := by
  constructor
  · rintro ⟨ys, hys⟩ a ha
    exact exists_of_mapM hys ha
  · intro h
    induction xs with
    | nil => exact ⟨[], rfl⟩
    | cons a xs ih =>
      rw [forall_mem_cons] at h
      obtain ⟨b, hb⟩ := h.1
      obtain ⟨ys, hys⟩ := ih h.2
      refine ⟨b :: ys, ?_⟩
      rw [mapM_cons, hb, hys]
      rfl

theorem forM_eq_ok (f : α → Except ε Unit) (xs : List α)
    (h : ∀ a ∈ xs, f a = .ok ()) : xs.forM f = .ok () := by
  induction xs with
  | nil => rfl
  | cons a xs ih =>
    show (f a >>= fun _ => xs.forM f) = _
    rw [h a mem_cons_self, ok_bind, ih fun b hb => h b (mem_cons_of_mem _ hb)]

theorem forM_eq_ok_iff {f : α → Except ε Unit} : xs.forM f = .ok () ↔ ∀ a ∈ xs, f a = .ok () := by
  refine ⟨fun h => ?_, forM_eq_ok f xs⟩
  induction xs with
  | nil => intro a ha; cases ha
  | cons b xs ih =>
    obtain ⟨_, hb, hxs⟩ := bind_eq_ok.1 (show (f b >>= fun _ => xs.forM f) = .ok () from h)
    exact forall_mem_cons.2 ⟨hb, ih hxs⟩

/-! ## `sorted` -/

section Sorted

variable {α : Type} (lt : α → α → Bool)

/-- `sorted(xs)` for the order `lt`: stable, the least item first. -/
def pySorted (xs : List α) : List α := xs.insertionSort fun a b => lt b a = false

/-- `sorted(xs, reverse=True)`: stable, the greatest item first. -/
def pySortedReverse (xs : List α) : List α := xs.insertionSort fun a b => lt a b = false

theorem pySorted_perm (xs : List α) : (pySorted lt xs).Perm xs := perm_insertionSort _ _

theorem pySortedReverse_perm (xs : List α) : (pySortedReverse lt xs).Perm xs :=
  perm_insertionSort _ _

@[simp] theorem length_pySorted (xs : List α) : (pySorted lt xs).length = xs.length :=
  (pySorted_perm lt xs).length_eq

@[simp] theorem length_pySortedReverse (xs : List α) : (pySortedReverse lt xs).length = xs.length :=
  (pySortedReverse_perm lt xs).length_eq

@[simp] theorem mem_pySorted (xs : List α) (a : α) : a ∈ pySorted lt xs ↔ a ∈ xs :=
  (pySorted_perm lt xs).mem_iff

@[simp] theorem mem_pySortedReverse (xs : List α) (a : α) : a ∈ pySortedReverse lt xs ↔ a ∈ xs :=
  (pySortedReverse_perm lt xs).mem_iff

variable {κ : Type} [LinearOrder κ] (key : α → κ)

/-- When `lt` compares a key in a linear order, `sorted` gives ascending keys. -/
theorem pySorted_pairwise (hkey : ∀ a b, lt a b = true ↔ key a < key b) (xs : List α) :
    (pySorted lt xs).Pairwise fun a b => key a ≤ key b := by
  have hle : ∀ a b, lt b a = false ↔ key a ≤ key b := by grind
  have : Std.Total fun a b => lt b a = false := ⟨fun a b => by simp only [hle]; exact le_total _ _⟩
  have : IsTrans α fun a b => lt b a = false :=
    ⟨fun a b c => by simp only [hle]; exact le_trans⟩
  exact (pairwise_insertionSort (fun a b => lt b a = false) xs).imp fun h => (hle _ _).1 h

/-- When `lt` compares a key in a linear order, `reverse=True` gives descending keys. -/
theorem pySortedReverse_pairwise (hkey : ∀ a b, lt a b = true ↔ key a < key b) (xs : List α) :
    (pySortedReverse lt xs).Pairwise fun a b => key b ≤ key a := by
  have hle : ∀ a b, lt a b = false ↔ key b ≤ key a := by grind
  have : Std.Total fun a b => lt a b = false := ⟨fun a b => by simp only [hle]; exact le_total _ _⟩
  have : IsTrans α fun a b => lt a b = false :=
    ⟨fun a b c => by simp only [hle]; exact fun h1 h2 => le_trans h2 h1⟩
  exact (pairwise_insertionSort (fun a b => lt a b = false) xs).imp fun h => (hle _ _).1 h

end Sorted

/-! ## `heapq` -/

section Heap

variable {α : Type} (lt : α → α → Bool)

/-- `heapq.heappush`. -/
def heappush (heap : List α) (item : α) : List α := item :: heap

/-- `heapq.heappop`: the least item and the heap without it, `none` for the empty heap. -/
def heappop : List α → Option (α × List α)
  | [] => none
  | x :: xs =>
    match heappop xs with
    | none => some (x, [])
    | some (m, rest) => if lt m x then some (m, x :: rest) else some (x, m :: rest)

theorem heappop_eq_none (heap : List α) : heappop lt heap = none ↔ heap = [] := by
  cases heap with
  | nil => exact ⟨fun _ => rfl, fun _ => rfl⟩
  | cons x xs =>
    refine ⟨fun h => ?_, fun h => by cases h⟩
    unfold heappop at h
    split at h
    · cases h
    · split at h <;> cases h

theorem heappop_perm (heap : List α) (m : α) (rest : List α) (h : heappop lt heap = some (m, rest)) :
    heap.Perm (m :: rest) := by
  induction heap generalizing m rest with
  | nil => cases h
  | cons x xs ih =>
    unfold heappop at h
    split at h
    · next hn =>
      cases h
      rw [(heappop_eq_none lt xs).1 hn]
    · next m' rest' hs =>
      have hp := ih m' rest' hs
      split at h
      · cases h
        exact (hp.cons x).trans (.swap _ _ _)
      · cases h
        exact hp.cons x

end Heap

end Verl
