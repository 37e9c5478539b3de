import Verl.Protocol.Operations

/-! # Round trips of `DataProto` (`verl/protocol.py`)

Cutting a `DataProto` and putting it together again:

    concat(d.chunk(c)) = d           when c divides the number of rows
    concat(d.split(s)) = d           for every s >= 1
    unpad(pad(d, k)) = d             for every k >= 1

* `slice_eq`: a slice is a gather of a stretch of rows.
* `concat_pieces`: stretches that follow each other give all rows; the merged `meta_info` has the
  entries of `d` except for `metrics` (`mergeMetaInfo_get?`). -/

namespace Verl

open List Dict

variable {τ ν : Type}

namespace DataProto

/-! ## Slices -/

variable {p n : Nat} {d : DataProto τ ν}

theorem slice_eq (hwf : d.WellFormed) (start stop : Option Int) :
    d.slice start stop none = .ok (d.gather (sliceIdxs d.len start stop 1)) := by
  have hlt : ∀ i ∈ sliceIdxs d.len start stop 1, i < d.len := lt_of_mem_sliceIdxs (by decide)
  have hnt : (d.nonTensorBatch.mapValsM fun rows =>
      if (1 : Int) = 0 then .error (.valueError "slice step cannot be zero")
      else .ok (gatherRows rows (sliceIdxs rows.length start stop 1))) =
      .ok (d.gather (sliceIdxs d.len start stop 1)).nonTensorBatch := by
    rw [nonTensorBatch_gather]
    apply mapValsM_eq_ok_mapVals
    intro c hc
    rw [if_neg one_ne_zero, hwf c hc]
  have hbatch : onBatch d.batch (fun td =>
      if (1 : Int) ≤ 0 then .error (.valueError "step must be greater than zero")
      else .ok (td.gather (sliceIdxs td.batchSize start stop 1))) =
      .ok (d.gather (sliceIdxs d.len start stop 1)).batch := by
    unfold onBatch gather
    cases hb : d.batch with
    | none => rfl
    | some td =>
      dsimp only
      rw [if_neg (by decide), len_of_batch hb]
      rfl
  unfold slice
  dsimp only [Option.getD_none]
  rw [hbatch, ok_bind, hnt, ok_bind]
  exact new_gather hwf (inBatch_of_lt hlt) d.metaInfo

/-! ## Merged `meta_info` -/

/-- The first item of a key other than `metrics` decides its value. -/
theorem foldlM_mergeMetaItem_get? {items : List (String × PyVal)}
    {acc r : List PyVal × Dict PyVal} (h : items.foldlM mergeMetaItem acc = .ok r) {key : String}
    (hkey : key ≠ "metrics") : r.2.get? key = (acc.2.get? key).or (items.lookup key) := by
  induction items generalizing acc with
  | nil =>
    cases h
    rw [lookup_nil, Option.or_none]
  | cons p items ih =>
    rw [foldlM_cons, bind_eq_ok] at h
    obtain ⟨acc', hstep, h⟩ := h
    rw [ih h, lookup_cons]
    by_cases hp : p.1 = key
    · have hne : p.1 ≠ "metrics" := by rw [hp]; exact hkey
      rw [hp, beq_self_eq_true]
      unfold mergeMetaItem at hstep
      rw [if_neg hne, hp] at hstep
      cases hget : acc.2.get? key with
      | none =>
        rw [hget] at hstep
        cases hstep
        rw [get?_insert, if_pos rfl]
        rfl
      | some v =>
        rw [hget] at hstep
        obtain ⟨-, -, hacc⟩ := bind_eq_ok.1 hstep
        cases hacc
        rw [hget]
        rfl
    · have hsame : acc'.2.get? key = acc.2.get? key := by
        unfold mergeMetaItem at hstep
        by_cases hmetrics : p.1 = "metrics"
        · grind
        · rw [if_neg hmetrics] at hstep
          split at hstep
          · obtain ⟨-, -, hacc⟩ := bind_eq_ok.1 hstep
            cases hacc
            rfl
          · cases hstep
            rw [get?_insert, if_neg (Ne.symm hp)]
      rw [hsame, beq_eq_false_iff_ne.2 (Ne.symm hp)]

theorem mergeMetaInfo_get? {metas : List (Dict PyVal)} {merged : Dict PyVal}
    (h : mergeMetaInfo metas = .ok merged) {key : String} (hkey : key ≠ "metrics") :
    merged.get? key = (metas.flatMap Dict.items).lookup key := by
  unfold mergeMetaInfo at h
  rw [bind_eq_ok] at h
  obtain ⟨r, hfold, h⟩ := h
  have hget := foldlM_mergeMetaItem_get? hfold hkey
  rw [show (([], Dict.empty) : List PyVal × Dict PyVal).2.get? key = none from rfl,
    Option.none_or] at hget
  rw [← hget]
  by_cases hempty : r.1.isEmpty = true
  · simp only [hempty, if_true] at h
    cases h
    rfl
  · simp only [hempty] at h
    obtain ⟨dicts, -, h⟩ := bind_eq_ok.1 h
    obtain ⟨metrics, -, h⟩ := bind_eq_ok.1 h
    cases h
    rw [get?_insert, if_neg hkey]

/-- Copies of one `meta_info` merge into its own entries. -/
theorem lookup_flatMap_replicate (metaInfo : Dict PyVal) (m : Nat) (key : String) :
    ((replicate (m + 1) metaInfo).flatMap Dict.items).lookup key = metaInfo.get? key := by
  induction m with
  | zero =>
    show (metaInfo.items ++ []).lookup key = _
    rw [append_nil]
    rfl
  | succ m ih =>
    rw [replicate_succ, flatMap_cons, lookup_append, ih]
    exact Option.or_self

theorem metaInfo_of_concat {data : List (DataProto τ ν)} {r : DataProto τ ν}
    (h : concat data = .ok r) : mergeMetaInfo (data.map metaInfo) = .ok r.metaInfo := by
  obtain ⟨batch, -, h⟩ := bind_eq_ok.1 h
  obtain ⟨lists, -, h⟩ := bind_eq_ok.1 h
  obtain ⟨merged, hmerged, h⟩ := bind_eq_ok.1 h
  obtain ⟨-, -, h⟩ := bind_eq_ok.1 h
  cases h
  exact hmerged

theorem allMetrics_replicate (metaInfo : Dict PyVal) (m : Nat) : allMetrics (replicate m metaInfo) =
      (replicate m (allMetrics [metaInfo])).flatten := by
  induction m with
  | zero => rfl
  | succ m ih =>
    have hone : allMetrics [metaInfo] = metaInfo.items.flatMap metricsOf := by
      unfold allMetrics
      rw [flatMap_singleton]
    rw [replicate_succ, replicate_succ, flatten_cons, ← ih, hone]
    unfold allMetrics
    rw [flatMap_cons, flatMap_append]

/-- A `meta_info` that can be merged with itself can be merged with any number of copies. -/
theorem mergeable_replicate {metaInfo : Dict PyVal} (h : Mergeable [metaInfo]) (m : Nat) :
    Mergeable (replicate m metaInfo) := by
  have hitem : ∀ p ∈ (replicate m metaInfo).flatMap Dict.items,
      p ∈ [metaInfo].flatMap Dict.items := by simp
  have hmetric : ∀ v ∈ allMetrics (replicate m metaInfo), v ∈ allMetrics [metaInfo] := by
    intro v hv
    rw [allMetrics_replicate] at hv
    obtain ⟨vs, hvs, hv⟩ := mem_flatten.1 hv
    rwa [eq_of_mem_replicate hvs] at hv
  constructor
  · intro p hp q hq
    exact h.values p (hitem p hp) q (hitem q hq)
  · intro v hv
    exact h.areDicts v (hmetric v hv)
  · intro v hv first hfirst
    apply h.sameKeys v (hmetric v hv) first
    rw [allMetrics_replicate] at hfirst
    cases m with
    | zero => cases hv
    | succ m =>
      rw [replicate_succ, flatten_cons] at hfirst
      cases hmetrics : allMetrics [metaInfo] with
      | nil =>
        have hmem := hmetric v hv
        rw [hmetrics] at hmem
        cases hmem
      | cons w ws =>
        rw [hmetrics] at hfirst
        exact hfirst

/-! ## Pieces of one `DataProto` -/

theorem concat_gathers (hwf : d.WellFormed) (hm : Mergeable [d.metaInfo])
    (idxs : List (List Nat)) (hne : idxs ≠ []) (h : ∀ is ∈ idxs, ∀ i ∈ is, i < d.len) :
    ∃ merged, concat (idxs.map d.gather) = .ok (d.gatherWith idxs.flatten merged) ∧
      ∀ key, key ≠ "metrics" → merged.get? key = d.metaInfo.get? key := by
  obtain ⟨is, rest, rfl⟩ := exists_cons_of_ne_nil hne
  have hmetas : ((is :: rest).map fun is => (is, d.metaInfo)).map Prod.snd =
      replicate (rest.length + 1) d.metaInfo := by
    rw [map_map]
    exact map_const'
  obtain ⟨merged, hcat⟩ := concat_map_gather hwf (is, d.metaInfo)
    (rest.map fun is => (is, d.metaInfo))
    (by
      intro p hp
      rw [← map_cons (f := fun is => (is, d.metaInfo))] at hp
      obtain ⟨js, hjs, rfl⟩ := mem_map.1 hp
      exact inBatch_of_lt (h js hjs))
    (by
      rw [← map_cons (f := fun is => (is, d.metaInfo)), hmetas]
      exact mergeable_replicate hm _)
  rw [← map_cons (f := fun is => (is, d.metaInfo)), map_map, flatMap_map] at hcat
  have hpieces : (is :: rest).map ((fun p => d.gatherWith p.1 p.2) ∘ fun is => (is, d.metaInfo)) =
      (is :: rest).map d.gather := rfl
  have hflat : (is :: rest).flatMap (fun is => (is, d.metaInfo).1) = (is :: rest).flatten := by
    rw [flatMap_def, map_id']
  rw [hpieces, hflat] at hcat
  refine ⟨merged, hcat, fun key hkey => ?_⟩
  have hmerged := metaInfo_of_concat hcat
  rw [map_map] at hmerged
  have hcopies : (is :: rest).map (metaInfo ∘ d.gather) =
      replicate (rest.length + 1) d.metaInfo := map_const'
  rw [hcopies] at hmerged
  rw [← lookup_flatMap_replicate d.metaInfo rest.length key]
  exact mergeMetaInfo_get? hmerged hkey

/-- Equal except for the metrics. -/
structure SameExceptMetrics (r d : DataProto τ ν) : Prop where
  batch : r.batch = d.batch
  nonTensorBatch : r.nonTensorBatch = d.nonTensorBatch
  metaInfo : ∀ key, key ≠ "metrics" → r.metaInfo.get? key = d.metaInfo.get? key

theorem concat_pieces (hwf : d.WellFormed) (hm : Mergeable [d.metaInfo])
    (idxs : List (List Nat)) (hne : idxs ≠ []) (hflat : idxs.flatten = range d.len) :
    ∃ r, concat (idxs.map d.gather) = .ok r ∧ SameExceptMetrics r d := by
  obtain ⟨merged, hcat, hmeta⟩ := concat_gathers hwf hm idxs hne fun is his i hi =>
    mem_range.1 (hflat ▸ mem_flatten.2 ⟨is, his, hi⟩)
  refine ⟨_, hcat, ?_, ?_, hmeta⟩
  · show (d.gather idxs.flatten).batch = _
    rw [hflat, gather_range hwf]
  · show (d.gather idxs.flatten).nonTensorBatch = _
    rw [hflat, gather_range hwf]

/-! ## Split -/

theorem flatten_sliceIdxs (n s m : Nat) :
    ((range m).map fun k => sliceIdxs n (some (k * s : Nat)) (some ((k + 1) * s : Nat)) 1).flatten =
      range (min (m * s) n) := by
  induction m with
  | zero => simp
  | succ m ih =>
    have hle : m * s ≤ (m + 1) * s := Nat.mul_le_mul_right s (Nat.le_succ m)
    rw [range_succ, map_append, flatten_append, ih, map_singleton,
      flatten_singleton, sliceIdxs_nat, range_eq_range', range_eq_range']
    generalize m * s = a at *
    generalize (m + 1) * s = b at *
    have hlen : min b n = min a n + (min b n - min a n) := by omega
    have happend := range'_append_1 (s := 0) (m := min a n) (n := min b n - min a n)
    rw [Nat.zero_add, ← hlen] at happend
    exact happend

theorem split_eq (hwf : d.WellFormed) {s : Nat} (hs : 1 ≤ s) :
    d.split s = .ok ((range (rangeLength 0 d.len s)).map fun k =>
      d.gather (sliceIdxs d.len (some (k * s : Nat)) (some ((k + 1) * s : Nat)) 1)) := by
  unfold split
  rw [if_neg (by omega)]
  apply mapM_eq_ok_map
  intro k _
  have hstop : (k : Int) * (s : Int) + s = ((k + 1) * s : Nat) := by
    rw [Nat.succ_mul, Nat.cast_add, Nat.cast_mul]
  rw [hstop, ← Nat.cast_mul, slice_eq hwf]

/-! ## Padding -/

theorem le_of_mem_padTakes {takeSize : Nat} (h : takeSize ∈ padTakes n p) : takeSize ≤ n := by
  induction p using Nat.strong_induction_on with
  | _ p ih =>
    rw [padTakes] at h
    by_cases hp : 0 < p ∧ 0 < n
    · grind
    · grind

theorem flatten_padTakes (hn : 0 < n) (p : Nat) :
    ((padTakes n p).map range).flatten = (range p).map (· % n) := by
  induction p using Nat.strong_induction_on with
  | _ p ih =>
    rw [padTakes]
    by_cases hp : 0 < p
    · rw [dif_pos ⟨hp, hn⟩, map_cons, flatten_cons, ih _ (by omega)]
      have hsplit : p = min p n + (p - min p n) := by omega
      have hfirst : (range (min p n)).map (· % n) = range (min p n) := by
        conv_rhs => rw [← map_id (range (min p n))]
        apply map_congr_left
        intro i hi
        rw [mem_range] at hi
        exact Nat.mod_eq_of_lt (by omega)
      conv_rhs => rw [hsplit, range_add, map_append, map_map, hfirst]
      congr 1
      · apply map_congr_left
        intro j hj
        rw [mem_range] at hj
        have hmin : min p n = n := by omega
        rw [Function.comp_apply, hmin, Nat.add_mod_left]
    · grind

/-- The rows of a padded `DataProto`. -/
def padIdxs (n p : Nat) : List Nat := List.range n ++ (List.range p).map (· % n)

theorem lt_of_mem_padIdxs (hn : 0 < n) : ∀ i ∈ padIdxs n p, i < n := by
  intro i hi
  rcases mem_append.1 hi with hi | hi
  · exact mem_range.1 hi
  · obtain ⟨j, -, rfl⟩ := mem_map.1 hi
    exact Nat.mod_lt j hn

theorem length_padIdxs (n p : Nat) : (padIdxs n p).length = n + p := by
  unfold padIdxs
  rw [length_append, length_map, length_range, length_range]

theorem getElem?_padIdxs_left {i : Nat} (hi : i < n) : (padIdxs n p)[i]? = some i := by
  unfold padIdxs
  rw [getElem?_append_left (by rw [length_range]; exact hi), getElem?_range hi]

theorem getElem?_padIdxs_right {i : Nat} (hi : i < p) : (padIdxs n p)[n + i]? = some (i % n) := by
  unfold padIdxs
  rw [getElem?_append_right (by rw [length_range]; omega), length_range,
    Nat.add_sub_cancel_left, getElem?_map, getElem?_range hi]
  rfl

/-- The size of the padding. -/
def padSizeOf (n k : Nat) : Nat := if n % k = 0 then 0 else k - n % k

theorem padDataprotoToDivisor_eq (hwf : d.WellFormed) (hn : 1 ≤ d.len)
    (hm : Mergeable [d.metaInfo]) {k : Nat} (hk : 1 ≤ k) :
    ∃ merged, padDataprotoToDivisor d k =
        .ok (d.gatherWith (padIdxs d.len (padSizeOf d.len k)) merged, padSizeOf d.len k) ∧
      ∀ key, key ≠ "metrics" → merged.get? key = d.metaInfo.get? key := by
  unfold padDataprotoToDivisor padSizeOf
  rw [if_neg (by omega)]
  by_cases hmod : d.len % k = 0
  · rw [if_neg (not_not.2 hmod), if_pos hmod]
    refine ⟨d.metaInfo, ?_, fun _ _ => rfl⟩
    have hsame : d.gatherWith (padIdxs d.len 0) d.metaInfo = d := by
      unfold gatherWith padIdxs
      rw [range_zero, map_nil, append_nil, gather_range hwf]
    rw [hsame]
  · rw [if_pos hmod, if_neg hmod]
    generalize k - d.len % k = p
    have hslices : ((padTakes d.len p).mapM fun (takeSize : Nat) =>
        d.slice none (some takeSize) none) =
        .ok (((padTakes d.len p).map range).map d.gather) := by
      rw [map_map]
      apply mapM_eq_ok_map
      intro takeSize htake
      rw [slice_eq hwf, sliceIdxs_upto, Nat.min_eq_left (le_of_mem_padTakes htake)]
      rfl
    have hflat : (range d.len :: (padTakes d.len p).map range).flatten =
        padIdxs d.len p := by
      rw [flatten_cons, flatten_padTakes hn]
      rfl
    obtain ⟨merged, hcat, hmeta⟩ := concat_gathers hwf hm
      (range d.len :: (padTakes d.len p).map range) (cons_ne_nil _ _)
      (by
        intro is his i hi
        apply lt_of_mem_padIdxs hn
        rw [← hflat]
        exact mem_flatten.2 ⟨is, his, hi⟩)
    rw [map_cons, gather_range hwf, hflat] at hcat
    refine ⟨merged, ?_, hmeta⟩
    dsimp only
    rw [hslices, ok_bind, hcat]
    rfl

/-- The padded length is the least multiple of `k` that is not below `n`. -/
theorem padSizeOf_least {k : Nat} (hk : 1 ≤ k) :
    k ∣ n + padSizeOf n k ∧ ∀ m, k ∣ m → n ≤ m → n + padSizeOf n k ≤ m := by
  have hdiv := Nat.div_add_mod n k
  have hlt := Nat.mod_lt n hk
  unfold padSizeOf
  by_cases hmod : n % k = 0
  · rw [if_pos hmod, Nat.add_zero]
    exact ⟨Nat.dvd_of_mod_eq_zero hmod, fun m _ hle => hle⟩
  · have hnext : n + (k - n % k) = k * (n / k + 1) := by
      rw [Nat.mul_succ]
      omega
    rw [if_neg hmod, hnext]
    refine ⟨Dvd.intro _ rfl, ?_⟩
    rintro m ⟨q, rfl⟩ hle
    apply Nat.mul_le_mul_left
    by_contra hq
    have hmul := Nat.mul_le_mul_left k (show q ≤ n / k by omega)
    omega

theorem unpadDataproto_eq (hwf : d.WellFormed) (hn : 1 ≤ d.len) (p : Nat) (merged : Dict PyVal) :
    unpadDataproto (d.gatherWith (padIdxs d.len p) merged) p =
      .ok { d with metaInfo := merged } := by
  have hin := lt_of_mem_padIdxs (p := p) hn
  have hpadded : (d.gatherWith (padIdxs d.len p) merged).WellFormed := wellFormed_gather hwf hin
  have hlen : (d.gatherWith (padIdxs d.len p) merged).len = d.len + p := by
    rw [← length_padIdxs]
    exact len_gather hwf hin
  have hback : (d.gatherWith (padIdxs d.len p) merged).gather (range d.len) =
      { d with metaInfo := merged } := by
    have hgather := gather_gather hwf (padIdxs d.len p) (range d.len) hin (by
      intro j hj
      rw [length_padIdxs]
      have := mem_range.1 hj
      omega)
    have hfront : gatherRows (padIdxs d.len p) (range d.len) = range d.len := by
      rw [range_eq_range', gatherRows_range', drop_zero, ← range_eq_range']
      exact take_left' length_range
    rw [hfront, gather_range hwf] at hgather
    show { (d.gather (padIdxs d.len p)).gather (range d.len) with metaInfo := merged } = _
    rw [hgather]
  unfold unpadDataproto
  by_cases hp : p = 0
  · subst hp
    have hself := gather_range hpadded
    rw [hlen, Nat.add_zero] at hself
    rw [if_neg (not_not.2 rfl), ← hback, hself]
  · rw [if_pos hp, slice_eq hpadded, hlen, sliceIdxs_upto_neg (by omega), Nat.add_sub_cancel, hback]

/-! ## Top theorem -/

/-- Chunks, splits and padding are undone, for rows with or without tensor columns. -/
theorem roundTrips {d : DataProto τ ν} (hwf : d.WellFormed) (hn : 1 ≤ d.len)
    (hm : Mergeable [d.metaInfo]) :
    (∀ autoPadding c, c ∣ d.len → ∃ chunks r, d.chunk autoPadding c = .ok chunks ∧
      concat chunks = .ok r ∧ SameExceptMetrics r d) ∧
    (∀ s : Nat, 1 ≤ s → ∃ pieces r, d.split s = .ok pieces ∧
      concat pieces = .ok r ∧ SameExceptMetrics r d) ∧
    ∀ k, 1 ≤ k → ∃ padded p r, padDataprotoToDivisor d k = .ok (padded, p) ∧
      padded.len = d.len + p ∧ (k ∣ padded.len ∧ ∀ m, k ∣ m → d.len ≤ m → padded.len ≤ m) ∧
      (∀ i < d.len, padded.row i = d.row i) ∧
      (∀ i < p, padded.row (d.len + i) = d.row (i % d.len)) ∧
      unpadDataproto padded p = .ok r ∧ SameExceptMetrics r d := by
  refine ⟨?_, ?_, ?_⟩
  · rintro autoPadding c ⟨s, hs⟩
    have hc : 1 ≤ c := Nat.pos_of_ne_zero fun h => by grind
    have hpos : 1 ≤ s := Nat.pos_of_ne_zero fun h => by grind
    obtain ⟨r, hcat, hsame⟩ := concat_pieces hwf hm
      ((List.range c).map fun i => List.range' (i * s) s)
      (by
        intro h
        rw [map_eq_nil_iff, range_eq_nil] at h
        omega)
      (by rw [← flatMap_def, flatMap_range', hs])
    rw [map_map] at hcat
    exact ⟨_, r, chunk_eq hwf hc hpos hs autoPadding, hcat, hsame⟩
  · intro s hs
    have hcover := le_rangeLength_mul d.len hs
    obtain ⟨r, hcat, hsame⟩ := concat_pieces hwf hm
      ((List.range (rangeLength 0 d.len s)).map fun k =>
        sliceIdxs d.len (some (k * s : Nat)) (some ((k + 1) * s : Nat)) 1)
      (by
        intro h
        rw [map_eq_nil_iff, range_eq_nil] at h
        rw [h, Nat.zero_mul] at hcover
        omega)
      (by rw [flatten_sliceIdxs, Nat.min_eq_right hcover])
    rw [map_map] at hcat
    exact ⟨_, r, split_eq hwf hs, hcat, hsame⟩
  · intro k hk
    have hin := lt_of_mem_padIdxs (p := padSizeOf d.len k) hn
    obtain ⟨merged, hpad, hmeta⟩ := padDataprotoToDivisor_eq hwf hn hm hk
    have hlen : (d.gatherWith (padIdxs d.len (padSizeOf d.len k)) merged).len =
        d.len + padSizeOf d.len k := by
      rw [← length_padIdxs]
      exact len_gather hwf hin
    refine ⟨_, _, _, hpad, hlen, ?_, ?_, ?_, unpadDataproto_eq hwf hn _ merged, rfl, rfl, hmeta⟩
    · rw [hlen]
      exact padSizeOf_least hk
    · intro i hi
      have hget := row_gather d hwf _ hin i (by rw [length_padIdxs]; omega)
      rw [(List.getElem?_eq_some_iff.1 (getElem?_padIdxs_left hi)).2] at hget
      exact hget
    · intro i hi
      have hget := row_gather d hwf _ hin (d.len + i) (by rw [length_padIdxs]; omega)
      rw [(List.getElem?_eq_some_iff.1 (getElem?_padIdxs_right hi)).2] at hget
      exact hget

/-- Three rows without tensor columns. -/
def threeRows (metrics : PyVal) : DataProto String String where
  batch := none
  nonTensorBatch := Dict.ofItems [("uid", ["a", "b", "c"])]
  metaInfo := Dict.ofItems [("step", .int 7), ("metrics", metrics)]

theorem roundTrips_threeRows :
    ∃ pieces r, (threeRows (.dict [("loss", .int 1)])).split 2 = .ok pieces ∧
      concat pieces = .ok r ∧ SameExceptMetrics r (threeRows (.dict [("loss", .int 1)])) :=
  (roundTrips (d := threeRows (.dict [("loss", .int 1)])) (by decide) (by decide) ⟨by decide,
    by
      intro v hv
      exact ⟨_, mem_singleton.1 hv⟩,
    by
      intro v hv first hfirst
      cases hfirst
      rw [mem_singleton.1 hv]
      exact fun key h => h⟩).2.1 2 (by decide)

/-- Metrics of two workers with different names. -/
theorem concat_split_raises :
    let d := threeRows (.list [.dict [("loss", .int 1)], .dict [("kl", .int 2)]])
    d.WellFormed ∧ (∀ p ∈ d.metaInfo.items, p.2.pyEq p.2 = true) ∧
      (d.split 3 >>= concat).isOk = false := by
  decide

end DataProto

end Verl
