import Verl.Lib.Slice

/-! # Interleaved rows

Rows cut into pieces of `stride` rows; `strided n stride offset size` puts the same stretch of each
of the `n` pieces behind each other.  `interleavePairs` takes rows from two tensors in turn;
`interleave` is the layout of fused queries, keys and values:
for each of `n` groups its `sq` rows of queries, then its `sk` rows of keys and its `sk` rows of
values.

* `strided_mul`: a tensor cut into parts of several pieces each.
* `firsts_interleavePairs`, `seconds_interleavePairs`, `queries_interleave`, `keys_interleave`, `values_interleave`: the layout can be undone. -/

namespace Verl

open List

variable {ρ : Type}

theorem length_flatten_map_range {n size : Nat} {piece : Nat → List ρ}
    (h : ∀ i < n, (piece i).length = size) :
    ((range n).map piece).flatten.length = n * size := by
  have hmap : (range n).map (length ∘ piece) = (range n).map fun _ => size :=
    map_congr_left fun i hi => h i (mem_range.1 hi)
  rw [length_flatten, map_map, hmap, map_const', sum_replicate_nat,
    length_range]

/-- One of equal pieces that were put together. -/
theorem getSlice_flatten_map_range {n size i : Nat} {piece : Nat → List ρ}
    (h : ∀ i < n, (piece i).length = size) (hi : i < n) :
    getSlice ((range n).map piece).flatten (i * size) size = piece i := by
  obtain ⟨k, rfl⟩ := Nat.exists_eq_add_of_le (Nat.succ_le_of_lt hi)
  have hsplit : ((range (i + 1 + k)).map piece).flatten =
      ((range i).map piece).flatten ++
        (piece i ++ ((range k).map fun j => piece (i + 1 + j)).flatten) := by
    rw [range_add, range_succ]
    simp [Function.comp_def]
  have hlen : ((range i).map piece).flatten.length = i * size :=
    length_flatten_map_range fun j hj => h j (by omega)
  unfold getSlice
  rw [hsplit, ← hlen, drop_left, take_left' (h i hi)]

theorem drop_getSlice (rows : List ρ) (start width offset : Nat) :
    (getSlice rows start width).drop offset = getSlice rows (start + offset) (width - offset) := by
  unfold getSlice
  rw [drop_take, drop_drop]

theorem flatten_map_range_mul {β : Type} (m n : Nat) (f : Nat → List β) :
    ((range (m * n)).map f).flatten =
      ((range m).map fun i => ((range n).map fun j => f (i * n + j)).flatten).flatten := by
  induction m with
  | zero =>
    rw [Nat.zero_mul]
    rfl
  | succ m ih =>
    rw [Nat.succ_mul, range_add, map_append, flatten_append, ih, range_succ]
    simp [Function.comp_def]

/-! ## Stretches -/

/-- Rows `offset .. offset + size` of each of `n` pieces. -/
def strided (n stride offset size : Nat) (rows : List ρ) : List ρ :=
  ((List.range n).map fun j => getSlice rows (j * stride + offset) size).flatten

theorem strided_self {n size : Nat} {rows : List ρ} (hlen : rows.length = n * size) :
    strided n size 0 size rows = rows := by
  unfold strided
  simp only [Nat.add_zero]
  rw [flatten_getSlice, getSlice_zero _ (Nat.le_of_eq hlen)]

theorem strided_mul (m n : Nat) {stride offset size : Nat} (rows : List ρ)
    (h : offset + size ≤ stride) :
    strided (m * n) stride offset size rows =
      ((range m).map fun i =>
        strided n stride offset size (getSlice rows (i * (n * stride)) (n * stride))).flatten := by
  unfold strided
  rw [flatten_map_range_mul]
  congr 1
  apply map_congr_left
  intro i _
  congr 1
  apply map_congr_left
  intro j hj
  have hle := mul_add_le (mem_range.1 hj) stride
  rw [getSlice_getSlice _ (by omega), Nat.add_mul, Nat.mul_assoc, Nat.add_assoc]

/-- The stretches of pieces that were put together, when they are the pieces of `xs`. -/
theorem strided_flatten {n stride offset size : Nat} {piece : Nat → List ρ} {xs : List ρ}
    (h : offset + size ≤ stride) (hpiece : ∀ j < n, (piece j).length = stride)
    (hxs : xs.length = n * size)
    (hslice : ∀ j < n, getSlice (piece j) offset size = getSlice xs (j * size) size) :
    strided n stride offset size ((range n).map piece).flatten = xs := by
  refine Eq.trans ?_ (strided_self hxs)
  unfold strided
  congr 1
  apply map_congr_left
  intro j hj
  rw [← getSlice_getSlice _ h, getSlice_flatten_map_range hpiece (mem_range.1 hj),
    hslice j (mem_range.1 hj), Nat.add_zero]

/-! ## Pairs -/

section Pairs

variable {n s : Nat} {x y : List ρ}

def pairRows (s : Nat) (x y : List ρ) (i : Nat) : List ρ :=
  getSlice x (i * s) s ++ getSlice y (i * s) s

/-- `s` rows of `x` and `s` rows of `y` in turn. -/
def interleavePairs (n s : Nat) (x y : List ρ) : List ρ :=
  ((List.range n).map (pairRows s x y)).flatten

variable (hx : x.length = n * s) (hy : y.length = n * s)
include hx hy

theorem length_pairRows {i : Nat} (hi : i < n) : (pairRows s x y i).length = s + s := by
  have hle := mul_add_le hi s
  unfold pairRows
  rw [length_append, length_getSlice (by omega), length_getSlice (by omega)]

theorem length_interleavePairs : (interleavePairs n s x y).length = n * (s + s) :=
  length_flatten_map_range fun _ hi => length_pairRows hx hy hi

theorem firsts_interleavePairs : strided n (s + s) 0 s (interleavePairs n s x y) = x := by
  refine strided_flatten (by omega) (fun _ hi => length_pairRows hx hy hi) hx fun i hi => ?_
  have hle := mul_add_le hi s
  exact take_left' (length_getSlice (by omega))

theorem seconds_interleavePairs : strided n (s + s) s s (interleavePairs n s x y) = y := by
  refine strided_flatten (by omega) (fun _ hi => length_pairRows hx hy hi) hy fun i hi => ?_
  have hle := mul_add_le hi s
  show List.take s (List.drop s (_ ++ _)) = _
  rw [drop_left' (length_getSlice (by omega)),
    take_of_length_le (Nat.le_of_eq (length_getSlice (by omega)))]

end Pairs

/-! ## Queries, keys and values -/

section Heads

variable (n sq sk : Nat)

def queries (rows : List ρ) : List ρ := strided n (sq + 2 * sk) 0 sq rows

def keys (rows : List ρ) : List ρ := strided n (sq + 2 * sk) sq sk rows

def values (rows : List ρ) : List ρ := strided n (sq + 2 * sk) (sq + sk) sk rows

/-- The rows of one group. -/
def groupRows (q k v : List ρ) (j : Nat) : List ρ :=
  getSlice q (j * sq) sq ++ (getSlice k (j * sk) sk ++ getSlice v (j * sk) sk)

def interleave (q k v : List ρ) : List ρ := ((List.range n).map (groupRows sq sk q k v)).flatten

variable {n sq sk} {q k v : List ρ}

section Groups

variable (hq : q.length = n * sq) (hk : k.length = n * sk) (hv : v.length = n * sk)
include hq hk hv

theorem length_groupRows {j : Nat} (hj : j < n) :
    (groupRows sq sk q k v j).length = sq + 2 * sk := by
  have hleq := mul_add_le hj sq
  have hlek := mul_add_le hj sk
  unfold groupRows
  rw [length_append, length_append, length_getSlice (by omega),
    length_getSlice (by omega), length_getSlice (by omega)]
  omega

theorem length_interleave : (interleave n sq sk q k v).length = n * (sq + 2 * sk) :=
  length_flatten_map_range fun _ hj => length_groupRows hq hk hv hj

theorem queries_interleave : queries n sq sk (interleave n sq sk q k v) = q := by
  refine strided_flatten (by omega) (fun _ hj => length_groupRows hq hk hv hj) hq fun j hj => ?_
  have hle := mul_add_le hj sq
  exact take_left' (length_getSlice (by omega))

theorem keys_interleave : keys n sq sk (interleave n sq sk q k v) = k := by
  refine strided_flatten (by omega) (fun _ hj => length_groupRows hq hk hv hj) hk fun j hj => ?_
  have hleq := mul_add_le hj sq
  have hlek := mul_add_le hj sk
  show List.take sk (List.drop sq (_ ++ _)) = _
  rw [drop_left' (length_getSlice (by omega)), take_left' (length_getSlice (by omega))]

theorem values_interleave : values n sq sk (interleave n sq sk q k v) = v := by
  refine strided_flatten (by omega) (fun _ hj => length_groupRows hq hk hv hj) hv fun j hj => ?_
  have hleq := mul_add_le hj sq
  have hlek := mul_add_le hj sk
  show List.take sk (List.drop (sq + sk) (_ ++ _)) = _
  rw [← drop_drop, drop_left' (length_getSlice (by omega)),
    drop_left' (length_getSlice (by omega)),
    take_of_length_le (Nat.le_of_eq (length_getSlice (by omega)))]

end Groups

/-- Parts of `n` groups each, put together. -/
theorem interleave_mul (m n : Nat) (q k v : List ρ) : interleave (m * n) sq sk q k v =
      ((range m).map fun i => interleave n sq sk (getSlice q (i * (n * sq)) (n * sq))
        (getSlice k (i * (n * sk)) (n * sk)) (getSlice v (i * (n * sk)) (n * sk))).flatten := by
  unfold interleave
  rw [flatten_map_range_mul]
  congr 1
  apply map_congr_left
  intro i _
  congr 1
  apply map_congr_left
  intro j hj
  have hleq := mul_add_le (mem_range.1 hj) sq
  have hlek := mul_add_le (mem_range.1 hj) sk
  unfold groupRows
  rw [getSlice_getSlice _ (by omega), getSlice_getSlice _ (by omega),
    getSlice_getSlice _ (by omega), Nat.add_mul, Nat.add_mul, Nat.mul_assoc, Nat.mul_assoc]

end Heads

end Verl
