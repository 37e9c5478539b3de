import Verl.Lib.Interleave
import Verl.Lib.Python

/-! # Tensors of rows

What `torch` does along the first dimension of a tensor, a list of rows of any kind: `torchChunk`,
`torchSplit`, `torchCat`.  `Tensor2` is a tensor of two dimensions, all rows of which have `cols` entries; it is
cut and put together along either of them, and `copySlice` is `t[a:b].copy_(src)`, which broadcasts.

* `torchChunk_mul`, `Tensor2.chunk_mul`: pieces of one size, when the size is divided.
* `Tensor2.exists_foldlM_copySlice`: a loop that writes one piece behind the other, writes their
  concatenation.
* `Tensor2.catAlong_pieces`: the pieces along a dimension, put together again. -/

namespace Verl

open List

variable {ρ α : Type}

/-- The offsets and sizes of `torch.chunk(t, chunks)` along a dimension of `len` entries: pieces
of `ceil(len / chunks)`, perhaps fewer than `chunks`. -/
def chunkBounds (len chunks : Nat) : Except PyErr (List (Nat × Nat)) :=
  if chunks = 0 then
    .error (.runtimeError "chunk expects `chunks` to be greater than 0, got: 0")
  else if len = 0 then .ok (List.replicate chunks (0, 0))
  else
    let size := (len + chunks - 1) / chunks
    .ok ((List.range ((len + size - 1) / size)).map fun i => (i * size, size))

def torchChunk (rows : List ρ) (chunks : Nat) : Except PyErr (List (List ρ)) :=
  (chunkBounds rows.length chunks).map fun bounds => bounds.map fun b => getSlice rows b.1 b.2

/-- Consecutive pieces of the given sizes. -/
def pieces : List Nat → List ρ → List (List ρ)
  | [], _ => []
  | size :: sizes, rows => rows.take size :: pieces sizes (rows.drop size)

/-- `t.split(sizes)`. -/
def torchSplit (rows : List ρ) (sizes : List Nat) : Except PyErr (List (List ρ)) :=
  if sizes.sum = rows.length then .ok (pieces sizes rows)
  else .error (.runtimeError
    s!"split_with_sizes expects split_sizes to sum exactly to {rows.length}")

/-- `torch.cat(ts, dim=0)`. -/
def torchCat : List (List ρ) → Except PyErr (List ρ)
  | [] => .error (.runtimeError "torch.cat(): expected a non-empty list of Tensors")
  | ts => .ok ts.flatten

theorem torchCat_of_ne_nil {ts : List (List ρ)} (h : ts ≠ []) : torchCat ts = .ok ts.flatten := by
  cases ts with
  | nil => exact absurd rfl h
  | cons t ts => rfl

theorem torchCat_map_range {n : Nat} (hn : 0 < n) (piece : Nat → List ρ) :
    torchCat ((range n).map piece) = .ok ((range n).map piece).flatten := by
  apply torchCat_of_ne_nil
  rw [Ne, map_eq_nil_iff, range_eq_nil]
  omega

theorem chunkBounds_mul {chunks : Nat} (h : 0 < chunks) (size : Nat) :
    chunkBounds (chunks * size) chunks =
      .ok ((range chunks).map fun i => (i * size, size)) := by
  unfold chunkBounds
  rw [if_neg (by omega)]
  by_cases hsize : size = 0
  · subst hsize
    simp
  · have hpos : 0 < chunks * size := Nat.mul_pos h (Nat.pos_of_ne_zero hsize)
    have hceil : (chunks * size + chunks - 1) / chunks = size := by
      rw [show chunks * size + chunks - 1 = chunks * size + (chunks - 1) by omega,
        Nat.mul_add_div h, Nat.div_eq_of_lt (by omega), Nat.add_zero]
    have hcount : (chunks * size + size - 1) / size = chunks := by
      rw [Nat.mul_comm, show size * chunks + size - 1 = size * chunks + (size - 1) by omega,
        Nat.mul_add_div (by omega), Nat.div_eq_of_lt (by omega), Nat.add_zero]
    rw [if_neg (by omega)]
    show Except.ok ((range ((chunks * size + (chunks * size + chunks - 1) / chunks - 1) /
      ((chunks * size + chunks - 1) / chunks))).map _) = _
    rw [hceil, hcount]

/-- The number of pieces of `torch.chunk` along a dimension of `len > 0` entries. -/
def chunkCount (len chunks : Nat) : Nat :=
  let size := (len + chunks - 1) / chunks
  (len + size - 1) / size

theorem exists_chunkBounds {len chunks : Nat} (hlen : 0 < len) (h : 0 < chunks) :
    ∃ size, 0 < size ∧ size ≤ len ∧ 0 < chunkCount len chunks ∧ chunkCount len chunks ≤ chunks ∧
      (∀ i < chunkCount len chunks, i * size < len) ∧ len ≤ chunkCount len chunks * size ∧
      chunkBounds len chunks = .ok ((range (chunkCount len chunks)).map fun i => (i * size, size)) := by
  have hbounds : chunkBounds len chunks = .ok ((range (chunkCount len chunks)).map fun i =>
      (i * ((len + chunks - 1) / chunks), (len + chunks - 1) / chunks)) := by
    unfold chunkBounds
    rw [if_neg h.ne', if_neg hlen.ne']
    rfl
  have hsize : 0 < (len + chunks - 1) / chunks := Nat.div_pos (by omega) h
  have hle : (len + chunks - 1) / chunks ≤ len := by
    rw [← Nat.lt_succ_iff, Nat.div_lt_iff_lt_mul h, Nat.succ_mul]
    have hmul := Nat.le_mul_of_pos_right len h
    omega
  have hchunks : len ≤ chunks * ((len + chunks - 1) / chunks) := by
    have hdiv := Nat.div_add_mod (len + chunks - 1) chunks
    have hmod := Nat.mod_lt (len + chunks - 1) h
    omega
  refine ⟨_, hsize, hle, ?_, ?_, ?_, ?_, hbounds⟩
  all_goals
    unfold chunkCount
    generalize (len + chunks - 1) / chunks = size at *
    dsimp only
  · exact Nat.div_pos (by omega) hsize
  · rw [← Nat.lt_succ_iff, Nat.div_lt_iff_lt_mul hsize, Nat.succ_mul]
    omega
  · intro i hi
    have hle := (Nat.le_div_iff_mul_le hsize).mp (Nat.succ_le_of_lt hi)
    rw [Nat.succ_mul] at hle
    omega
  · have hdiv := Nat.div_add_mod (len + size - 1) size
    have hmod := Nat.mod_lt (len + size - 1) hsize
    rw [Nat.mul_comm] at hdiv
    omega

theorem torchChunk_mul {rows : List ρ} {chunks size : Nat} (h : 0 < chunks)
    (hlen : rows.length = chunks * size) :
    torchChunk rows chunks =
      .ok ((range chunks).map fun i => getSlice rows (i * size) size) := by
  unfold torchChunk
  rw [hlen, chunkBounds_mul h]
  exact congrArg Except.ok map_map

/-! ## Two dimensions -/

structure Tensor2 (α : Type) where
  cols : Nat
  rows : List (List α)
  width : ∀ row ∈ rows, row.length = cols
deriving DecidableEq

namespace Tensor2

variable {size chunks n : Nat} {t : Tensor2 α}

@[ext] theorem ext {t' : Tensor2 α} (hcols : t.cols = t'.cols) (hrows : t.rows = t'.rows) :
    t = t' := by
  cases t
  cases t'
  cases hcols
  cases hrows
  rfl

def shape (t : Tensor2 α) : Nat × Nat := (t.rows.length, t.cols)

theorem shape_eq_iff {cols : Nat} : t.shape = (n, cols) ↔ t.rows.length = n ∧ t.cols = cols := by
  unfold shape
  rw [Prod.mk.injEq]

/-- `torch.empty(n, cols)`, all entries of which happen to be `a`. -/
def full (n cols : Nat) (a : α) : Tensor2 α where
  cols := cols
  rows := List.replicate n (List.replicate cols a)
  width := by
    intro row hrow
    rw [eq_of_mem_replicate hrow, length_replicate]

/-- `t[offset : offset + size]`. -/
def slice (t : Tensor2 α) (offset size : Nat) : Tensor2 α where
  cols := t.cols
  rows := getSlice t.rows offset size
  width := fun row hrow => t.width row (mem_of_mem_drop (mem_of_mem_take hrow))

/-- `t[offset:]`. -/
def sliceFrom (t : Tensor2 α) (offset : Nat) : Tensor2 α where
  cols := t.cols
  rows := t.rows.drop offset
  width := fun row hrow => t.width row (mem_of_mem_drop hrow)

/-- `t[:, offset : offset + size]`. -/
def sliceCols (t : Tensor2 α) (offset size : Nat) : Tensor2 α where
  cols := min size (t.cols - offset)
  rows := t.rows.map fun row => getSlice row offset size
  width := by
    intro piece hpiece
    obtain ⟨row, hrow, rfl⟩ := mem_map.1 hpiece
    unfold getSlice
    rw [length_take, length_drop, t.width row hrow]

/-- `torch.chunk(t, chunks, dim=0)`. -/
def chunk (t : Tensor2 α) (chunks : Nat) : Except PyErr (List (Tensor2 α)) :=
  (chunkBounds t.rows.length chunks).map fun bounds => bounds.map fun b => t.slice b.1 b.2

/-- `torch.chunk(t, chunks, dim=1)`. -/
def chunkCols (t : Tensor2 α) (chunks : Nat) : Except PyErr (List (Tensor2 α)) :=
  (chunkBounds t.cols chunks).map fun bounds => bounds.map fun b => t.sliceCols b.1 b.2

/-- Piece `i` of pieces of `size` entries along a dimension. -/
def pieceAlong (t : Tensor2 α) (size : Nat) : Fin 2 → Nat → Tensor2 α
  | 0, i => t.slice (i * size) size
  | 1, i => t.sliceCols (i * size) size

def lengthAlong (t : Tensor2 α) : Fin 2 → Nat
  | 0 => t.rows.length
  | 1 => t.cols

/-- `torch.chunk(t, chunks, dim)`. -/
def chunkAlong (t : Tensor2 α) : Fin 2 → Nat → Except PyErr (List (Tensor2 α))
  | 0 => t.chunk
  | 1 => t.chunkCols

/-- `torch.cat(ts, dim=0)`. -/
def cat : List (Tensor2 α) → Except PyErr (Tensor2 α)
  | [] => .error (.runtimeError "torch.cat(): expected a non-empty list of Tensors")
  | t :: ts =>
    if h : ∀ t' ∈ t :: ts, t'.cols = t.cols then
      .ok {
        cols := t.cols
        rows := (t :: ts).flatMap rows
        width := by
          intro row hrow
          obtain ⟨t', ht', hrow⟩ := mem_flatMap.1 hrow
          rw [t'.width row hrow, h t' ht'] }
    else .error (.runtimeError "Sizes of tensors must match except in dimension 0.")

/-- `torch.cat(ts, dim=1)`. -/
def catCols : List (Tensor2 α) → Except PyErr (Tensor2 α)
  | [] => .error (.runtimeError "torch.cat(): expected a non-empty list of Tensors")
  | t :: ts =>
    if h : ∀ t' ∈ t :: ts, t'.rows.length = t.rows.length then
      .ok {
        cols := ((t :: ts).map cols).sum
        rows := (List.range t.rows.length).map fun i =>
          (t :: ts).flatMap fun t' => t'.rows.getD i []
        width := by
          intro row hrow
          obtain ⟨i, hi, rfl⟩ := mem_map.1 hrow
          rw [length_flatMap]
          congr 1
          apply map_congr_left
          intro t' ht'
          have hlt : i < t'.rows.length := by
            rw [h t' ht']
            exact mem_range.1 hi
          rw [getD_eq_getElem _ _ hlt]
          exact t'.width _ (getElem_mem hlt) }
    else .error (.runtimeError "Sizes of tensors must match except in dimension 1.")

/-- `torch.cat(ts, dim)`. -/
def catAlong (ts : List (Tensor2 α)) : Fin 2 → Except PyErr (Tensor2 α)
  | 0 => cat ts
  | 1 => catCols ts

/-- A dimension of one entry stands for one of any length. -/
def expandRows (t : Tensor2 α) (n : Nat) : Option (Tensor2 α) :=
  if t.rows.length = n then some t
  else if t.rows.length = 1 then
    some {
      cols := t.cols
      rows := t.rows.flatMap (List.replicate n)
      width := by
        intro row hrow
        obtain ⟨row', hrow', hmem⟩ := mem_flatMap.1 hrow
        rw [eq_of_mem_replicate hmem]
        exact t.width row' hrow' }
  else none

def expandCols (t : Tensor2 α) (n : Nat) : Option (Tensor2 α) :=
  if t.cols = n then some t
  else if h : t.cols = 1 then
    some {
      cols := n
      rows := t.rows.map fun row => row.flatMap (List.replicate n)
      width := by
        intro row hrow
        obtain ⟨row', hrow', rfl⟩ := mem_map.1 hrow
        obtain ⟨a, rfl⟩ := length_eq_one_iff.1 ((t.width row' hrow').trans h)
        simp }
  else none

theorem cols_of_expandCols {t' : Tensor2 α} (h : t.expandCols n = some t') : t'.cols = n := by
  unfold expandCols at h
  split at h
  · grind
  · split at h
    · cases h
      rfl
    · cases h

/-- `t[offset : offset + size].copy_(src)`. -/
def copySlice (t : Tensor2 α) (offset size : Nat) (src : Tensor2 α) :
    Except PyErr (Tensor2 α) :=
  match h : (src.expandRows (t.slice offset size).rows.length).bind (expandCols · t.cols) with
  | none => .error (.runtimeError "The size of tensor a must match the size of tensor b")
  | some data =>
    .ok {
      cols := t.cols
      rows := setSlice t.rows (min offset t.rows.length) data.rows
      width := by
        have hcols : data.cols = t.cols := by
          obtain ⟨_, -, hdata⟩ := Option.bind_eq_some_iff.1 h
          exact cols_of_expandCols hdata
        intro row hrow
        unfold setSlice at hrow
        rw [mem_append, mem_append] at hrow
        rcases hrow with (hrow | hrow) | hrow
        · exact t.width row (mem_of_mem_take hrow)
        · exact (data.width row hrow).trans hcols
        · exact t.width row (mem_of_mem_drop hrow) }

/-- `t.copy_(src)`. -/
def copy (t src : Tensor2 α) : Except PyErr (Tensor2 α) := t.copySlice 0 t.rows.length src

theorem chunk_mul (h : 0 < chunks) (hlen : t.rows.length = chunks * size) :
    t.chunk chunks = .ok ((range chunks).map fun i => t.slice (i * size) size) := by
  unfold chunk
  rw [hlen, chunkBounds_mul h]
  exact congrArg Except.ok map_map

theorem chunkCols_mul (h : 0 < chunks) (hcols : t.cols = chunks * size) :
    t.chunkCols chunks = .ok ((range chunks).map fun i => t.sliceCols (i * size) size) := by
  unfold chunkCols
  rw [hcols, chunkBounds_mul h]
  exact congrArg Except.ok map_map

theorem exists_cat {ts : List (Tensor2 α)} {cols : Nat} (hne : ts ≠ [])
    (h : ∀ t ∈ ts, t.cols = cols) :
    ∃ t, cat ts = .ok t ∧ t.cols = cols ∧ t.rows = ts.flatMap rows := by
  cases ts with
  | nil => exact absurd rfl hne
  | cons t ts =>
    have ht := h t mem_cons_self
    refine ⟨_, dif_pos fun t' ht' => (h t' ht').trans ht.symm, ht, rfl⟩

theorem exists_cat_pair {u : Tensor2 α} {cols : Nat} (ht : t.cols = cols) (hu : u.cols = cols) :
    ∃ r, cat [t, u] = .ok r ∧ r.cols = cols ∧ r.rows = t.rows ++ u.rows := by
  obtain ⟨r, hcat, hcols, hrows⟩ := exists_cat (cons_ne_nil t [u])
    (forall_mem_cons.2 ⟨ht, forall_mem_singleton.2 hu⟩)
  refine ⟨r, hcat, hcols, ?_⟩
  rw [hrows, flatMap_cons, flatMap_singleton]

theorem exists_cat_triple {u v : Tensor2 α} {cols : Nat} (ht : t.cols = cols)
    (hu : u.cols = cols) (hv : v.cols = cols) :
    ∃ r, cat [t, u, v] = .ok r ∧ r.cols = cols ∧ r.rows = t.rows ++ (u.rows ++ v.rows) := by
  obtain ⟨r, hcat, hcols, hrows⟩ := exists_cat (cons_ne_nil t [u, v])
    (forall_mem_cons.2 ⟨ht, forall_mem_cons.2 ⟨hu, forall_mem_singleton.2 hv⟩⟩)
  refine ⟨r, hcat, hcols, ?_⟩
  rw [hrows, flatMap_cons, flatMap_cons, flatMap_singleton]

theorem exists_cat_map_range {cols : Nat} {piece : Nat → Tensor2 α} (hn : 0 < n)
    (h : ∀ i < n, (piece i).cols = cols) :
    ∃ t, cat ((range n).map piece) = .ok t ∧ t.cols = cols ∧
      t.rows = ((range n).map fun i => (piece i).rows).flatten := by
  have hne : (range n).map piece ≠ [] := by
    rw [Ne, map_eq_nil_iff, range_eq_nil]
    omega
  have hall : ∀ t ∈ (range n).map piece, t.cols = cols := by grind
  obtain ⟨t, hcat, hcols, hrows⟩ := exists_cat hne hall
  refine ⟨t, hcat, hcols, ?_⟩
  rw [hrows, flatMap_def, map_map]
  rfl

theorem catCols_chunkCols (h : 0 < chunks) (hcols : t.cols ≤ chunks * size) :
    catCols ((range chunks).map fun i => t.sliceCols (i * size) size) = .ok t := by
  obtain ⟨n, rfl⟩ : ∃ n, chunks = n + 1 := ⟨chunks - 1, by omega⟩
  have hrange : (range (n + 1)).map (fun i => t.sliceCols (i * size) size) =
      t.sliceCols (0 * size) size ::
        (range n).map fun i => t.sliceCols ((i + 1) * size) size := by
    rw [range_succ_eq_map, map_cons, map_map]
    rfl
  have hlen : ∀ t' ∈ t.sliceCols (0 * size) size ::
      (range n).map (fun i => t.sliceCols ((i + 1) * size) size),
      t'.rows.length = (t.sliceCols (0 * size) size).rows.length := by
    rw [← hrange]
    intro t' ht'
    obtain ⟨i, -, rfl⟩ := mem_map.1 ht'
    show (t.rows.map _).length = (t.rows.map _).length
    rw [length_map, length_map]
  rw [hrange]
  refine (dif_pos hlen).trans (congrArg Except.ok (ext ?_ ?_))
  · show (List.map cols _).sum = t.cols
    rw [← hrange, map_map]
    exact (sum_range_min t.cols size (n + 1)).trans (Nat.min_eq_right hcols)
  · show (range (t.rows.map _).length).map _ = t.rows
    rw [← hrange]
    apply ext_getElem
    · simp
    · intro i hi hi'
      have hrow : t.rows[i].length ≤ (n + 1) * size :=
        (t.width _ (getElem_mem hi')).trans_le hcols
      have hpiece : ∀ k, (t.sliceCols (k * size) size).rows.getD i [] =
          getSlice t.rows[i] (k * size) size := by
        intro k
        have hlt : i < (t.sliceCols (k * size) size).rows.length := by
          show i < (t.rows.map _).length
          rw [length_map]
          exact hi'
        rw [getD_eq_getElem _ _ hlt]
        exact getElem_map _
      rw [getElem_map, getElem_range, flatMap_map]
      simp only [hpiece]
      rw [flatMap_def, flatten_getSlice, getSlice_zero _ hrow]

theorem shape_slice {cols i : Nat} (h : t.shape = (n * size, cols))
    (hi : i < n) : (t.slice (i * size) size).shape = (size, cols) := by
  obtain ⟨hlen, hcols⟩ := shape_eq_iff.1 h
  have hle := mul_add_le hi size
  exact shape_eq_iff.2 ⟨length_getSlice (by omega), hcols⟩

theorem shape_sliceCols {rows i : Nat} (h : t.shape = (rows, n * size))
    (hi : i < n) : (t.sliceCols (i * size) size).shape = (rows, size) := by
  obtain ⟨hlen, hcols⟩ := shape_eq_iff.1 h
  have hle := mul_add_le hi size
  refine shape_eq_iff.2 ⟨(length_map ..).trans hlen, ?_⟩
  show min size (t.cols - i * size) = size
  omega

theorem cat_slices (hn : 0 < n) (hlen : t.rows.length = n * size) :
    cat ((range n).map fun i => t.slice (i * size) size) = .ok t := by
  obtain ⟨r, hcat, hcols, hrows⟩ := exists_cat_map_range hn fun i _ =>
    (show (t.slice (i * size) size).cols = t.cols from rfl)
  rw [hcat, ext hcols (hrows.trans ?_)]
  show ((range n).map fun i => getSlice t.rows (i * size) size).flatten = t.rows
  rw [flatten_getSlice, getSlice_zero _ (Nat.le_of_eq hlen)]

theorem chunkAlong_mul {dim : Fin 2} (hn : 0 < n) (hlen : t.lengthAlong dim = n * size) :
    t.chunkAlong dim n = .ok ((range n).map (t.pieceAlong size dim)) := by
  match dim with
  | 0 => exact chunk_mul hn hlen
  | 1 => exact chunkCols_mul hn hlen

theorem catAlong_pieces {dim : Fin 2} (hn : 0 < n) (hlen : t.lengthAlong dim = n * size) :
    catAlong ((range n).map (t.pieceAlong size dim)) dim = .ok t := by
  match dim with
  | 0 => exact cat_slices hn hlen
  | 1 => exact catCols_chunkCols hn (Nat.le_of_eq hlen)

theorem exists_copySlice {src : Tensor2 α} {offset : Nat} (hle : offset + size ≤ t.rows.length)
    (hsrc : src.rows.length = size) (hcols : src.cols = t.cols) :
    ∃ t', t.copySlice offset size src = .ok t' ∧ t'.cols = t.cols ∧
      t'.rows = setSlice t.rows offset src.rows := by
  have hview : (t.slice offset size).rows.length = size := length_getSlice hle
  have hexpand : (src.expandRows (t.slice offset size).rows.length).bind (expandCols · t.cols) =
      some src := by
    unfold expandRows
    rw [if_pos (hsrc.trans hview.symm)]
    exact if_pos hcols
  unfold copySlice
  split
  · next h => cases h.symm.trans hexpand
  · grind

theorem copy_eq {src : Tensor2 α} (h : src.shape = t.shape) : t.copy src = .ok src := by
  have hlen : src.rows.length = t.rows.length := congrArg Prod.fst h
  have hcols : src.cols = t.cols := congrArg Prod.snd h
  obtain ⟨t', hcopy, hcols', hrows'⟩ := exists_copySlice (show 0 + t.rows.length ≤ _ by omega)
    hlen hcols
  unfold copy
  rw [hcopy, ext (hcols'.trans hcols.symm) (hrows'.trans ?_)]
  unfold setSlice
  rw [take_zero, nil_append, Nat.zero_add, hlen, drop_length, append_nil]

theorem exists_foldlM_copySlice (n size : Nat) (t : Tensor2 α)
    (f : Tensor2 α → Nat → Except PyErr (Tensor2 α)) (piece : Nat → Tensor2 α)
    (hlen : t.rows.length = n * size)
    (hpiece : ∀ i < n, (piece i).rows.length = size ∧ (piece i).cols = t.cols)
    (hf : ∀ i < n, ∀ t', t'.rows.length = n * size → t'.cols = t.cols →
      f t' i = t'.copySlice (i * size) size (piece i)) :
    ∃ t', (range n).foldlM f t = .ok t' ∧ t'.cols = t.cols ∧
      t'.rows = ((range n).map fun i => (piece i).rows).flatten := by
  -- the rows behind the pieces written so far are those of `t`
  have hrun : ∀ k ≤ n, ∃ t', (range k).foldlM f t = .ok t' ∧ t'.cols = t.cols ∧
      t'.rows = ((range k).map fun i => (piece i).rows).flatten ++ t.rows.drop (k * size) := by
    intro k
    induction k with
    | zero =>
      intro _
      refine ⟨t, rfl, rfl, ?_⟩
      rw [Nat.zero_mul]
      rfl
    | succ k ih =>
      intro hk
      obtain ⟨t', hfold, hcols, hrows⟩ := ih (by omega)
      obtain ⟨hsize, hwidth⟩ := hpiece k hk
      have hdone : ((range k).map fun i => (piece i).rows).flatten.length = k * size :=
        length_flatten_map_range fun i hi => (hpiece i (by omega)).1
      have hle := Nat.mul_le_mul_right size hk
      rw [Nat.succ_mul] at hle
      have hlen' : t'.rows.length = n * size := by grind
      obtain ⟨t'', hcopy, hcols'', hrows''⟩ := exists_copySlice
        (show k * size + size ≤ t'.rows.length by omega) hsize (hwidth.trans hcols.symm)
      refine ⟨t'', ?_, hcols''.trans hcols, ?_⟩
      · rw [range_succ, foldlM_append, hfold, ok_bind, foldlM_cons,
          hf k hk t' hlen' hcols, hcopy]
        rfl
      · rw [hrows'', hrows, range_succ, ← hdone,
          setSlice_append, hdone, hsize, drop_drop, ← Nat.succ_mul]
        simp
  obtain ⟨t', hfold, hcols, hrows⟩ := hrun n (Nat.le_refl n)
  refine ⟨t', hfold, hcols, ?_⟩
  rw [hrows, ← hlen, drop_length, append_nil]

end Tensor2

end Verl
