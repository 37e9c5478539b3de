import Verl.Protocol.RowMaps

/-!
# The pieces of `chunk` (`verl/protocol.py`)

`chunk` cuts a batch into consecutive pieces (`chunkPieces`), which torch makes of one size but the
last, and numpy of two sizes.

    d.chunk k = .ok ((d.chunkPieces k).map d.gather)      (one piece for each of the k)
    (d.chunkPieces k).flatten = 0, 1, ..., d.len - 1

A batch is cut into `k` pieces exactly if it may be and there is a piece for each (`chunk_ok_iff`).
-/

namespace Verl

open List

variable {τ ν : Type}

theorem map_getD_range {α : Type} (xs : List α) (fallback : α) :
    (range xs.length).map (fun i => xs.getD i fallback) = xs := by
  apply ext_getElem
  · rw [length_map, length_range]
  · grind

namespace DataProto

variable {autoPadding : Bool}

theorem flatten_pieceIdxs (start : Nat) (sizes : List Nat) :
    (pieceIdxs start sizes).flatten = range' start sizes.sum := by
  induction sizes generalizing start with
  | nil => rfl
  | cons size sizes ih =>
    unfold pieceIdxs
    rw [flatten_cons, ih, sum_cons, range'_append_1]

theorem flatten_chunkPieces (d : DataProto τ ν) {k : Nat} (hk : 1 ≤ k) :
    (d.chunkPieces k).flatten = range d.len := by
  unfold chunkPieces
  cases hb : d.batch with
  | some td =>
    rw [flatten_pieceIdxs, sum_chunkSizes hk, len_of_batch hb, range_eq_range']
  | none =>
    rw [flatten_pieceIdxs, sum_arraySplitSizes hk, range_eq_range']

/-- Torch does not cut a batch of no rows. -/
theorem chunkSizes_zero {k : Nat} (hk : 1 ≤ k) : chunkSizes 0 k = [] := by
  unfold chunkSizes
  rw [show (0 + k - 1) / k = 0 from Nat.div_eq_of_lt (by omega)]
  rfl

theorem length_chunkSizes_le {n k : Nat} (hk : 1 ≤ k) : (chunkSizes n k).length ≤ k := by
  rcases Nat.eq_zero_or_pos n with rfl | hn
  · rw [chunkSizes_zero hk]
    exact Nat.zero_le k
  unfold chunkSizes
  have hsize : 1 ≤ (n + k - 1) / k := (Nat.one_le_div_iff hk).2 (by omega)
  have hdiv := Nat.div_add_mod (n + k - 1) k
  have hmod := Nat.mod_lt (n + k - 1) hk
  rw [length_map, length_range, ← Nat.lt_succ_iff, Nat.div_lt_iff_lt_mul hsize,
    Nat.succ_mul]
  omega

variable {d : DataProto τ ν}

/-- The pieces of a batch that may be cut, when there is one for each. -/
theorem chunk_eq_chunkPieces (hwf : d.WellFormed) {k : Nat} (hk : 1 ≤ k)
    (hcut : (d.isPaddingEnabled autoPadding || d.len % k == 0) = true) (hlen : (d.chunkPieces k).length = k) :
    d.chunk autoPadding k = .ok ((d.chunkPieces k).map d.gather) := by
  have hne : d.chunkPieces k ≠ [] := by grind
  have hcols : (d.nonTensorBatch.items.forM fun c =>
      pyAssert ((d.chunkColumn k c.2).length == k) "") = .ok () := by
    refine forM_eq_ok _ _ fun c hc => ?_
    rw [chunkColumn_eq hk hne (hwf c hc), length_map, hlen, beq_self_eq_true, pyAssert_true]
  have hbatch : ∀ i < k, (d.chunkBatch k)[i]?
      = some (d.gather ((d.chunkPieces k).getD i [])).batch := by
    intro i hi
    rw [← hlen] at hi
    unfold chunkBatch gather
    unfold chunkPieces at hi ⊢
    cases hb : d.batch with
    | none =>
      dsimp only [Option.map_none] at ⊢
      rw [getElem?_replicate, if_pos (hlen ▸ hi)]
    | some td =>
      rw [hb] at hi
      rw [getElem?_map, getD_eq_getElem?_getD, getElem?_eq_getElem hi]
      rfl
  have hnt : ∀ i < k, (d.nonTensorBatch.mapVals fun _ val => (d.chunkColumn k val).getD i [])
      = (d.gather ((d.chunkPieces k).getD i [])).nonTensorBatch := by
    intro i hi
    rw [← hlen] at hi
    rw [nonTensorBatch_gather]
    refine Dict.mapVals_congr fun c hc => ?_
    rw [chunkColumn_eq hk hne (hwf c hc), getD_eq_getElem?_getD, getElem?_map,
      getD_eq_getElem?_getD, getElem?_eq_getElem hi]
    rfl
  have hlt : ∀ i < k, ∀ r ∈ (d.chunkPieces k).getD i [], r < d.len := by
    intro i hi
    rw [← hlen] at hi
    rw [getD_eq_getElem?_getD, getElem?_eq_getElem hi]
    exact lt_of_mem_chunkPieces hk (getElem_mem hi)
  have hpieces : (d.chunkPieces k).map d.gather
      = (range k).map fun i => d.gather ((d.chunkPieces k).getD i []) := by
    conv_lhs => rw [← map_getD_range (d.chunkPieces k) [], hlen, map_map]
    rfl
  unfold chunk
  rw [if_neg (by omega), hcut, hcols,
    hpieces]
  refine mapM_eq_ok_map _ _ _ fun i hi => ?_
  rw [mem_range] at hi
  rw [hbatch i hi]
  rw [hnt i hi]
  exact new_gather hwf (inBatch_of_lt (hlt i hi)) d.metaInfo

/-- Otherwise there is no last piece. -/
theorem chunk_ne_ok {td : TensorDict τ} (hb : d.batch = some td)
    {k : Nat} (hk : 1 ≤ k) (hlen : (chunkSizes d.len k).length ≠ k)
    {pieces : List (DataProto τ ν)} : d.chunk autoPadding k ≠ .ok pieces := by
  have hle := length_chunkSizes_le (n := d.len) hk
  intro h
  unfold chunk at h
  rw [if_neg (by omega)] at h
  obtain ⟨_, -, h⟩ := bind_eq_ok.1 h
  obtain ⟨_, -, h⟩ := bind_eq_ok.1 h
  obtain ⟨piece, -, hlast⟩ := exists_of_forall₂ (forall₂_of_mapM_eq_ok h).flip
    (mem_range.2 (by omega : k - 1 < k))
  have hnone : (d.chunkBatch k)[k - 1]? = none := by
    unfold chunkBatch
    rw [hb]
    rw [getElem?_map, Option.map_eq_none_iff, getElem?_eq_none_iff, length_pieceIdxs,
      ← len_of_batch hb]
    omega
  rw [hnone] at hlast
  cases hlast

/-- `chunk` returns exactly if the batch may be cut and there is a piece for each. -/
theorem chunk_ok_iff (hwf : d.WellFormed) {td : TensorDict τ} (hb : d.batch = some td) {k : Nat} :
    (∃ pieces, d.chunk autoPadding k = .ok pieces) ↔
      1 ≤ k ∧ (d.isPaddingEnabled autoPadding = true ∨ k ∣ d.len) ∧
        (chunkSizes d.len k).length = k := by
  have hpieces : (d.chunkPieces k).length = (chunkSizes d.len k).length := by
    simp [chunkPieces, hb, length_pieceIdxs, ← len_of_batch hb]
  constructor
  · rintro ⟨pieces, hchunk⟩
    have hk : 1 ≤ k := by
      rcases Nat.eq_zero_or_pos k with rfl | hk
      · unfold chunk at hchunk
        cases hchunk
      · exact hk
    refine ⟨hk, ?_, ?_⟩
    · unfold chunk at hchunk
      rw [if_neg (by omega)] at hchunk
      obtain ⟨_, hassert, -⟩ := bind_eq_ok.1 hchunk
      rw [pyAssert_eq_ok, Bool.or_eq_true, beq_iff_eq] at hassert
      exact hassert.imp_right Nat.dvd_of_mod_eq_zero
    · by_contra hlen
      exact chunk_ne_ok hb hk hlen hchunk
  · rintro ⟨hk, hcut, hlen⟩
    refine ⟨_, chunk_eq_chunkPieces hwf hk ?_ (hpieces.trans hlen)⟩
    rw [Bool.or_eq_true, beq_iff_eq]
    exact hcut.imp_right Nat.mod_eq_zero_of_dvd

end DataProto

end Verl
