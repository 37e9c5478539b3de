import Verl.Engine.LMHead

/-! # Which log-probs the engine returns

Whatever the switches, the values are computed on the packed hidden states of the sequences
(`packedResult`); what differs is the temperature and the labels.

* `forwardStep_plain`: with plain logits the labels are the packed tokens, rolled once, and
  the temperature is clamped.
* `forwardStep_fused`: the fused head rolls each shard by itself and does not clamp.
* `correct_iff`: when the result is the log-probs of the next tokens and the entropies. -/

namespace Verl.Engine

open List

variable {V : Nat} {H : Type}

/-! ## The hidden states of the sequences -/

/-- The hidden state at each position of a sequence. -/
def hiddenOf (hidden : List (Fin V) → H) (s : List (Fin V)) : List H :=
  (List.range s.length).map fun t => hidden (s.take (t + 1))

/-- What the positions `rest` behind `seen` give. -/
def hiddenFrom (hidden : List (Fin V) → H) (seen rest : List (Fin V)) : List H :=
  (List.range rest.length).map fun t => hidden (seen ++ rest.take (t + 1))

section

variable (hidden : List (Fin V) → H)
include hidden

theorem hiddenFrom_cons (seen rest : List (Fin V)) (token : Fin V) :
    hiddenFrom hidden seen (token :: rest) =
      hidden (seen ++ [token]) :: hiddenFrom hidden (seen ++ [token]) rest := by
  unfold hiddenFrom
  rw [length_cons, range_succ_eq_map, map_cons, map_map]
  congr 1
  apply map_congr_left
  intro t _
  rw [append_assoc]
  rfl

theorem length_hiddenOf (s : List (Fin V)) : (hiddenOf hidden s).length = s.length := by
  unfold hiddenOf
  rw [length_map, length_range]

variable (seen : List (Fin V))

theorem varlenHidden_cons_zero (token : Fin V) (rest : List (Fin V × Nat)) :
    varlenHidden hidden seen ((token, 0) :: rest) =
      hidden [token] :: varlenHidden hidden [token] rest := rfl

theorem varlenHidden_cons_succ (token : Fin V) (k : Nat) (rest : List (Fin V × Nat)) :
    varlenHidden hidden seen ((token, k + 1) :: rest) =
      hidden (seen ++ [token]) :: varlenHidden hidden (seen ++ [token]) rest := rfl

theorem maskedHidden_cons_one (token : Fin V) (rest : List (Fin V × Nat)) :
    maskedHidden hidden seen ((token, 1) :: rest) =
      hidden (seen ++ [token]) :: maskedHidden hidden (seen ++ [token]) rest := rfl

/-- Position ids that do not start again stay in the sequence. -/
theorem varlenHidden_range' (seen rest : List (Fin V)) (k : Nat) (tail : List (Fin V × Nat)) :
    varlenHidden hidden seen (rest.zip (range' (k + 1) rest.length) ++ tail) =
      hiddenFrom hidden seen rest ++ varlenHidden hidden (seen ++ rest) tail := by
  induction rest generalizing seen k with
  | nil =>
    rw [append_nil]
    rfl
  | cons token rest ih =>
    rw [length_cons, range'_succ, zip_cons_cons, cons_append, hiddenFrom_cons,
      varlenHidden_cons_succ, ih (seen ++ [token]) (k + 1), append_assoc seen]
    rfl

/-- A sequence of a packed row does not see what is in front of it. -/
theorem varlenHidden_sequence (seen s : List (Fin V)) (tail : List (Fin V × Nat)) :
    ∃ seen', varlenHidden hidden seen (s.zip (range s.length) ++ tail) =
      hiddenOf hidden s ++ varlenHidden hidden seen' tail := by
  cases s with
  | nil => exact ⟨seen, rfl⟩
  | cons token rest =>
    refine ⟨[token] ++ rest, ?_⟩
    rw [length_cons, range_eq_range', range'_succ, zip_cons_cons,
      cons_append, varlenHidden_cons_zero, varlenHidden_range' hidden [token] rest 0 tail]
    have hcons := hiddenFrom_cons hidden [] rest token
    exact (congrArg (· ++ varlenHidden hidden ([token] ++ rest) tail) hcons).symm

theorem varlenHidden_flatten (seqs : List (List (Fin V))) (seen : List (Fin V)) :
    varlenHidden hidden seen
        (seqs.flatten.zip (seqs.map fun s => range s.length).flatten) =
      (seqs.map (hiddenOf hidden)).flatten := by
  induction seqs generalizing seen with
  | nil => rfl
  | cons s seqs ih =>
    have hlen : s.length = (range s.length).length := length_range.symm
    rw [flatten_cons, map_cons, flatten_cons, zip_append hlen]
    obtain ⟨seen', hseen⟩ := varlenHidden_sequence hidden seen s _
    rw [hseen, ih seen']
    rfl

/-- The positions in front of the padding of a row. -/
theorem maskedHidden_replicate (seen rest : List (Fin V)) (tail : List (Fin V × Nat)) :
    maskedHidden hidden seen (rest.zip (replicate rest.length 1) ++ tail) =
      hiddenFrom hidden seen rest ++ maskedHidden hidden (seen ++ rest) tail := by
  induction rest generalizing seen with
  | nil =>
    rw [append_nil]
    rfl
  | cons token rest ih =>
    rw [length_cons, replicate_succ, zip_cons_cons, cons_append,
      hiddenFrom_cons, maskedHidden_cons_one, ih (seen ++ [token]), append_assoc seen]
    rfl

end

/-! ## Remove-padding: the packed row and its shards -/

section Packed

variable (cfg : EngineConfig) (batch : MicroBatch V)

namespace MicroBatch

def packedIds : List (Fin V) := batch.inputIds.flatten

def packedHidden (hidden : List (Fin V) → H) : List H :=
  (batch.inputIds.map (hiddenOf hidden)).flatten

theorem length_packedHidden (hidden : List (Fin V) → H) :
    (batch.packedHidden hidden).length = batch.packedIds.length := by
  unfold packedHidden packedIds
  rw [length_flatten, length_flatten, map_map]
  congr 1
  apply map_congr_left
  intro s _
  exact length_hiddenOf hidden s

theorem length_positionIds : batch.positionIds.flatten.length = batch.packedIds.length := by
  unfold positionIds packedIds
  rw [length_flatten, length_flatten, map_map]
  congr 1
  apply map_congr_left
  intro s _
  exact length_range

end MicroBatch

variable {backend : FusedBackend} {α : Type} {rank : Nat}

theorem expandAsNested_replicate (t : ℝ) (rows : List (List (Fin V))) :
    expandAsNested (replicate rows.length t) rows = replicate rows.flatten.length t := by
  unfold expandAsNested
  induction rows with
  | nil => rfl
  | cons row rows ih =>
    rw [length_cons, replicate_succ, zipWith_cons_cons, flatten_cons, ih,
      flatten_cons, length_append, replicate_append_replicate]

theorem nestOutputs_vec (k : Nat) (f : Nat → List ℝ) :
    nestOutputs batch k ((range cfg.spSize).map fun r => .vec (f r)) =
      .ok (.jagged (batch.seqLens.splitLengths
        (unpadTensor k ((range cfg.spSize).flatMap f)))) := by
  have hvalues : ((range cfg.spSize).map fun r => Tensor.vec (f r)).mapM tensorValues =
      .ok ((range cfg.spSize).map f) := by
    rw [mapM_eq_ok_map tensorValues fun x => (tensorValues x).toOption.getD []]
    · rw [map_map]
      rfl
    · intro x hx
      obtain ⟨r, -, rfl⟩ := mem_map.1 hx
      rfl
  unfold nestOutputs
  rw [hvalues]
  rfl

variable [NeZero V]

/-- `pad_size`. -/
def padSize : Nat := ulyssesPadSize cfg.spSize batch.packedIds.length

def paddedIds : List (Fin V) := ulyssesPad cfg.spSize 0 batch.packedIds

/-- The length of a shard. -/
def localLength : Nat := (paddedIds cfg batch).length / cfg.spSize

def paddedPositionIds : List Nat := batch.positionIds.flatten ++ List.range (padSize cfg batch)

/-- The tokens of the padding count as a sequence of their own. -/
def paddedHidden (hidden : List (Fin V) → H) : List H :=
  batch.packedHidden hidden ++ hiddenOf hidden (List.replicate (padSize cfg batch) 0)

theorem length_paddedIds : (paddedIds cfg batch).length = batch.packedIds.length + padSize cfg batch :=
  length_ulyssesPad _ _ _

theorem dvd_length_paddedIds : cfg.spSize ∣ (paddedIds cfg batch).length :=
  dvd_length_ulyssesPad cfg.spSize_pos 0 batch.packedIds

theorem length_paddedPositionIds :
    (paddedPositionIds cfg batch).length = (paddedIds cfg batch).length := by
  unfold paddedPositionIds
  rw [length_append, batch.length_positionIds, length_range, length_paddedIds]

theorem length_paddedHidden (hidden : List (Fin V) → H) :
    (paddedHidden cfg batch hidden).length = (paddedIds cfg batch).length := by
  unfold paddedHidden
  rw [length_append, batch.length_packedHidden, length_hiddenOf, length_replicate,
    length_paddedIds]

theorem varlenHidden_padded (hidden : List (Fin V) → H) :
    varlenHidden hidden [] ((paddedIds cfg batch).zip (paddedPositionIds cfg batch)) =
      paddedHidden cfg batch hidden := by
  have h := varlenHidden_flatten hidden
    (batch.inputIds ++ [replicate (padSize cfg batch) 0]) []
  simp only [flatten_append, map_append, flatten_singleton, map_cons,
    map_nil, length_replicate] at h
  exact h

section

variable (hrmpad : cfg.useRemovePadding = true)
include hrmpad

/-- With one rank nothing is padded and the shard is the packed row. -/
theorem prepareModelInputs_packed (hrank : rank < cfg.spSize) : prepareModelInputs cfg batch rank =
      ( { inputIds := [sliceInputTensor cfg.spSize rank (paddedIds cfg batch)]
          positionIds := [sliceInputTensor cfg.spSize rank (paddedPositionIds cfg batch)]
          attentionMask := none
          temperature := cfg.useFusedKernels.map fun _ => batch.temperature },
        { inputIdsRmpadRolled :=
            sliceInputTensor cfg.spSize rank (ulyssesPad cfg.spSize 0 (roll batch.packedIds))
          temperature := sliceInputTensor cfg.spSize rank (ulyssesPad cfg.spSize 1
            (expandAsNested (replicate batch.inputIds.length batch.temperature)
              batch.inputIds))
          padSize := padSize cfg batch } ) := by
  unfold prepareModelInputs
  rw [if_pos hrmpad]
  by_cases hsp : 1 < cfg.spSize
  · have hulysses : cfg.useUlyssesSp = true := decide_eq_true hsp
    rw [if_pos hulysses]
    rfl
  · have hulysses : cfg.useUlyssesSp ≠ true := by
      unfold EngineConfig.useUlyssesSp
      simp [hsp]
    have hone : cfg.spSize = 1 := by omega
    obtain rfl : rank = 0 := by omega
    rw [if_neg hulysses]
    unfold paddedIds paddedPositionIds padSize
    rw [hone]
    simp only [sliceInputTensor_one, ulyssesPad_one, ulyssesPadSize_one, range_zero,
      append_nil]
    rfl

theorem map_prepareModelInputs :
    (range cfg.spSize).map (fun r => (prepareModelInputs cfg batch r).1) =
      (range cfg.spSize).map fun r =>
        { inputIds := [sliceInputTensor cfg.spSize r (paddedIds cfg batch)]
          positionIds := [sliceInputTensor cfg.spSize r (paddedPositionIds cfg batch)]
          attentionMask := none
          temperature := cfg.useFusedKernels.map fun _ => batch.temperature } := by
  apply map_congr_left
  intro r hr
  rw [prepareModelInputs_packed cfg batch hrmpad (mem_range.1 hr)]

theorem baseForward_packed (hidden : List (Fin V) → H) (hrank : rank < cfg.spSize) :
    baseForward hidden
        ((range cfg.spSize).map fun r => (prepareModelInputs cfg batch r).1) rank
        (prepareModelInputs cfg batch rank).1 =
      [sliceInputTensor cfg.spSize rank (paddedHidden cfg batch hidden)] := by
  have hids : (range cfg.spSize).flatMap
      (fun r => [sliceInputTensor cfg.spSize r (paddedIds cfg batch)].flatten) =
        paddedIds cfg batch := by
    simp only [flatten_singleton]
    exact flatten_slices (dvd_length_paddedIds cfg batch)
  have hpositions : (range cfg.spSize).flatMap
      (fun r => [sliceInputTensor cfg.spSize r (paddedPositionIds cfg batch)].flatten) =
        paddedPositionIds cfg batch := by
    simp only [flatten_singleton]
    exact flatten_slices (by
      rw [length_paddedPositionIds]
      exact dvd_length_paddedIds cfg batch)
  rw [map_prepareModelInputs cfg batch hrmpad, prepareModelInputs_packed cfg batch hrmpad hrank]
  unfold baseForward
  dsimp only
  rw [flatMap_map, flatMap_map, hids, hpositions, varlenHidden_padded, length_map,
    length_range]

end

/-- What rank `rank` hands to `prepareModelOutputs`. -/
noncomputable def rankOutput (model : TextModel V H) (rank : Nat) :
    ModelOutput V × OutputArgs V :=
  (forward cfg model ((range cfg.spSize).map fun r => (prepareModelInputs cfg batch r).1) rank
    (prepareModelInputs cfg batch rank).1, (prepareModelInputs cfg batch rank).2)

theorem forwardStep_eq (model : TextModel V H) : forwardStep cfg model batch =
      prepareModelOutputs cfg batch ((range cfg.spSize).map (rankOutput cfg batch model)) := by
  unfold forwardStep
  dsimp only
  rw [map_map]
  rfl

/-- The labels as the plain path has them, the padding included. -/
def paddedLabels : List (Fin V) := ulyssesPad cfg.spSize 0 (roll batch.packedIds)

/-- The labels of the fused head: each shard is rolled by itself. -/
def fusedLabels : List (Fin V) :=
  (List.range cfg.spSize).flatMap fun r =>
    roll (sliceInputTensor cfg.spSize r (paddedIds cfg batch))

variable (xs : List α) (lmHead : H → Fin V → ℝ)

/-- The result for the packed hidden states, from logits scaled by `scale` and `labels`. -/
noncomputable def packedResult (model : TextModel V H) (scale : (Fin V → ℝ) → Fin V → ℝ)
    (labels : List (Fin V)) : LogProbsAndEntropy :=
  let logits := (batch.packedHidden model.hidden).map fun h => scale (model.lmHead h)
  { logProbs := .jagged (batch.seqLens.splitLengths (logprobsFromLogits logits labels))
    entropy := .jagged (batch.seqLens.splitLengths (entropyFromLogits logits)) }

theorem flatMap_slices (h : xs.length = (paddedIds cfg batch).length) :
    (range cfg.spSize).flatMap (fun r => sliceInputTensor cfg.spSize r xs) = xs := by
  exact flatten_slices (by rw [h]; exact dvd_length_paddedIds cfg batch)

theorem unpadTensor_padded (h : xs.length = (paddedIds cfg batch).length) :
    unpadTensor (padSize cfg batch) xs = xs.take batch.packedIds.length := by
  unfold unpadTensor
  rw [h, length_paddedIds, Nat.add_sub_cancel]

theorem take_paddedHidden (hidden : List (Fin V) → H) :
    (paddedHidden cfg batch hidden).take batch.packedIds.length = batch.packedHidden hidden :=
  take_left' (batch.length_packedHidden hidden)

/-- The temperature of each position of the packed row. -/
def paddedTemperature : List ℝ :=
  ulyssesPad cfg.spSize 1
    (expandAsNested (List.replicate batch.inputIds.length batch.temperature) batch.inputIds)

omit [NeZero V] in
theorem paddedTemperature_eq : paddedTemperature cfg batch =
      replicate batch.packedIds.length batch.temperature ++
        replicate (padSize cfg batch) 1 := by
  unfold paddedTemperature ulyssesPad
  rw [expandAsNested_replicate, length_replicate]
  rfl

/-- The scaled logits of the padded row. -/
noncomputable def paddedLogits (lmHead : H → Fin V → ℝ) (hidden : List (Fin V) → H) :
    List (Fin V → ℝ) :=
  zipWith divTemperature ((paddedHidden cfg batch hidden).map lmHead)
    (paddedTemperature cfg batch)

theorem length_paddedTemperature :
    (paddedTemperature cfg batch).length = (paddedIds cfg batch).length := by
  rw [paddedTemperature_eq, length_append, length_replicate, length_replicate,
    length_paddedIds]

theorem length_paddedLogits (hidden : List (Fin V) → H) :
    (paddedLogits cfg batch lmHead hidden).length = (paddedIds cfg batch).length := by
  unfold paddedLogits
  rw [length_zipWith, length_map, length_paddedHidden, length_paddedTemperature,
    Nat.min_self]

theorem length_roll : (roll xs).length = xs.length := length_rotate _ _

theorem length_paddedLabels : (paddedLabels cfg batch).length = (paddedIds cfg batch).length := by
  unfold paddedLabels
  rw [length_ulyssesPad, length_roll, length_paddedIds]
  rfl

theorem take_paddedLogits (hidden : List (Fin V) → H) :
    (paddedLogits cfg batch lmHead hidden).take batch.packedIds.length =
      (batch.packedHidden hidden).map fun h => divTemperature (lmHead h) batch.temperature := by
  unfold paddedLogits
  rw [take_zipWith, ← map_take, take_paddedHidden, paddedTemperature_eq,
    take_left' length_replicate]
  have hlen : ((batch.packedHidden hidden).map lmHead).length = batch.packedIds.length := by
    rw [length_map, batch.length_packedHidden]
  rw [← hlen, zipWith_replicate_length, map_map]
  rfl

section

variable (hrmpad : cfg.useRemovePadding = true)
include hrmpad

/-- Plain logits of a rank: the shard of the values of the whole row. -/
theorem localOutputs_plain (hplain : cfg.useFusedKernels = none)
    (model : TextModel V H) (hrank : rank < cfg.spSize) :
    localOutputs (rankOutput cfg batch model rank).1 (rankOutput cfg batch model rank).2 =
      (.vec (sliceInputTensor cfg.spSize rank (logprobsFromLogits
          (paddedLogits cfg batch model.lmHead model.hidden) (paddedLabels cfg batch))),
        .vec (sliceInputTensor cfg.spSize rank
          (entropyFromLogits (paddedLogits cfg batch model.lmHead model.hidden)))) := by
  have hoffset : (rankOutput cfg batch model rank).1 = .logits
      [(sliceInputTensor cfg.spSize rank (paddedHidden cfg batch model.hidden)).map model.lmHead] := by
    unfold rankOutput forward
    rw [baseForward_packed cfg batch hrmpad model.hidden hrank, hplain]
    rfl
  have hargs : (rankOutput cfg batch model rank).2 = (prepareModelInputs cfg batch rank).2 := rfl
  have hlogits : zipWith divTemperature
      ((sliceInputTensor cfg.spSize rank (paddedHidden cfg batch model.hidden)).map model.lmHead)
      (sliceInputTensor cfg.spSize rank (paddedTemperature cfg batch)) =
        sliceInputTensor cfg.spSize rank (paddedLogits cfg batch model.lmHead model.hidden) := by
    unfold paddedLogits
    rw [sliceInputTensor_zipWith _ _ _ (by
      rw [length_map, length_paddedHidden, length_paddedTemperature]), sliceInputTensor_map]
  rw [hoffset, hargs, prepareModelInputs_packed cfg batch hrmpad hrank]
  unfold localOutputs logprobsFromLogits entropyFromLogits
  dsimp only
  rw [flatten_singleton]
  have htemp : ulyssesPad cfg.spSize 1 (expandAsNested
    (replicate batch.inputIds.length batch.temperature) batch.inputIds) =
      paddedTemperature cfg batch := rfl
  rw [htemp, hlogits, sliceInputTensor_zipWith _ _ _ (by
    rw [length_paddedLogits, length_paddedLabels]), sliceInputTensor_map]
  rfl

theorem forwardStep_packed (model : TextModel V H)
    {f g : Nat → List ℝ}
    (h : ∀ r < cfg.spSize, localOutputs (rankOutput cfg batch model r).1
      (rankOutput cfg batch model r).2 = (.vec (f r), .vec (g r))) :
    forwardStep cfg model batch =
      .ok { logProbs := .jagged (batch.seqLens.splitLengths
              (unpadTensor (padSize cfg batch) ((range cfg.spSize).flatMap f)))
            entropy := .jagged (batch.seqLens.splitLengths
              (unpadTensor (padSize cfg batch) ((range cfg.spSize).flatMap g))) } := by
  have hlocal : ((range cfg.spSize).map (rankOutput cfg batch model)).map
      (fun r => localOutputs r.1 r.2) =
        (range cfg.spSize).map fun r => (Tensor.vec (f r), Tensor.vec (g r)) := by
    rw [map_map]
    apply map_congr_left
    intro r hr
    exact h r (mem_range.1 hr)
  have hpad : (((range cfg.spSize).map (rankOutput cfg batch model)).head?.map
      fun r => r.2.padSize).getD 0 = padSize cfg batch := by
    obtain ⟨k, hk⟩ : ∃ k, cfg.spSize = k + 1 := ⟨cfg.spSize - 1, by
      have := cfg.spSize_pos
      omega⟩
    have hargs : (rankOutput cfg batch model 0).2.padSize = padSize cfg batch := by
      show (prepareModelInputs cfg batch 0).2.padSize = _
      rw [prepareModelInputs_packed cfg batch hrmpad cfg.spSize_pos]
    rw [hk, range_succ_eq_map]
    exact hargs
  rw [forwardStep_eq]
  unfold prepareModelOutputs
  rw [if_pos hrmpad]
  dsimp only
  rw [hlocal, hpad, map_map, map_map]
  show (nestOutputs batch (padSize cfg batch) ((range cfg.spSize).map fun r => .vec (f r)) >>=
    fun logProbs => nestOutputs batch (padSize cfg batch)
      ((range cfg.spSize).map fun r => .vec (g r)) >>= fun entropy => _) = _
  rw [nestOutputs_vec, ok_bind, nestOutputs_vec, ok_bind]

theorem forwardStep_plain_packed (hplain : cfg.useFusedKernels = none) (model : TextModel V H) :
    forwardStep cfg model batch =
      .ok (packedResult batch model (fun z => divTemperature z batch.temperature)
        (roll batch.packedIds)) := by
  have hlogits := length_paddedLogits cfg batch model.lmHead model.hidden
  have hlogProbs : (logprobsFromLogits (paddedLogits cfg batch model.lmHead model.hidden)
      (paddedLabels cfg batch)).length = (paddedIds cfg batch).length := by
    unfold logprobsFromLogits
    rw [length_zipWith, hlogits, length_paddedLabels, Nat.min_self]
  have hentropy : (entropyFromLogits (paddedLogits cfg batch model.lmHead model.hidden)).length =
      (paddedIds cfg batch).length := by
    unfold entropyFromLogits
    rw [length_map, hlogits]
  have hlabels : (paddedLabels cfg batch).take batch.packedIds.length = roll batch.packedIds :=
    take_left' (length_roll _)
  rw [forwardStep_packed cfg batch hrmpad model fun r hr =>
      localOutputs_plain cfg batch hrmpad hplain model hr,
    flatMap_slices cfg batch _ hlogProbs, flatMap_slices cfg batch _ hentropy,
    unpadTensor_padded cfg batch _ hlogProbs, unpadTensor_padded cfg batch _ hentropy]
  unfold packedResult logprobsFromLogits entropyFromLogits
  rw [take_zipWith, ← map_take, take_paddedLogits, hlabels]

end

/-! ## The fused head on the shards -/

/-- The logits of the fused head, scaled by the temperature as it is. -/
noncomputable def fusedLogits (lmHead : H → Fin V → ℝ) (hiddenStates : List H) :
    List (Fin V → ℝ) :=
  hiddenStates.map fun h v => lmHead h v / batch.temperature

theorem rankOutput_fused (hrmpad : cfg.useRemovePadding = true)
    (hfused : cfg.useFusedKernels = some backend) (model : TextModel V H)
    (hrank : rank < cfg.spSize) :
    (rankOutput cfg batch model rank).1 =
      fusedForward backend model.lmHead batch.temperature
        [sliceInputTensor cfg.spSize rank (paddedIds cfg batch)]
        [sliceInputTensor cfg.spSize rank (paddedHidden cfg batch model.hidden)] := by
  unfold rankOutput forward
  rw [baseForward_packed cfg batch hrmpad model.hidden hrank,
    prepareModelInputs_packed cfg batch hrmpad hrank, hfused]
  rfl

/-- The log-probs of a shard, with the labels of its own tokens. -/
noncomputable def shardLogProbs (model : TextModel V H) (rank : Nat) : List ℝ :=
  logprobsFromLogits
    (fusedLogits batch model.lmHead
      (sliceInputTensor cfg.spSize rank (paddedHidden cfg batch model.hidden)))
    (roll (sliceInputTensor cfg.spSize rank (paddedIds cfg batch)))

noncomputable def shardEntropy (model : TextModel V H) (rank : Nat) : List ℝ :=
  entropyFromLogits (fusedLogits batch model.lmHead
    (sliceInputTensor cfg.spSize rank (paddedHidden cfg batch model.hidden)))

theorem localOutputs_torch (hrmpad : cfg.useRemovePadding = true)
    (hfused : cfg.useFusedKernels = some .torch) (model : TextModel V H)
    (hrank : rank < cfg.spSize) :
    localOutputs (rankOutput cfg batch model rank).1 (rankOutput cfg batch model rank).2 =
      (.vec (shardLogProbs cfg batch model rank), .vec (shardEntropy cfg batch model rank)) := by
  rw [rankOutput_fused cfg batch hrmpad hfused model hrank]
  rfl

variable (model : TextModel V H) {xs : List α}

theorem length_shardLogProbs (hrank : rank < cfg.spSize) :
    (shardLogProbs cfg batch model rank).length = localLength cfg batch := by
  unfold shardLogProbs logprobsFromLogits fusedLogits localLength
  rw [length_zipWith, length_map, length_roll, length_sliceInputTensor hrank,
    length_sliceInputTensor hrank, length_paddedHidden, Nat.min_self]

theorem length_shardEntropy (hrank : rank < cfg.spSize) :
    (shardEntropy cfg batch model rank).length = localLength cfg batch := by
  unfold shardEntropy entropyFromLogits fusedLogits localLength
  rw [length_map, length_map, length_sliceInputTensor hrank, length_paddedHidden]

theorem squeeze_vec (h : xs.length ≠ 1) : (Tensor.vec xs).squeeze = .vec xs := by
  cases xs with
  | nil => rfl
  | cons a xs =>
    cases xs with
    | nil => exact absurd rfl h
    | cons b xs => rfl

theorem squeeze_vec_one (h : xs.length = 1) :
    ∃ a, (Tensor.vec xs).squeeze = .scalar a := by
  obtain ⟨a, rfl⟩ := length_eq_one_iff.1 h
  exact ⟨a, rfl⟩

/-- The triton head has no dimension of size one in front, so `squeeze` meets the positions. -/
theorem localOutputs_triton (hrmpad : cfg.useRemovePadding = true)
    (hfused : cfg.useFusedKernels = some .triton) (model : TextModel V H)
    (hrank : rank < cfg.spSize) :
    localOutputs (rankOutput cfg batch model rank).1 (rankOutput cfg batch model rank).2 =
      ((Tensor.vec (shardLogProbs cfg batch model rank)).squeeze,
        (Tensor.vec (shardEntropy cfg batch model rank)).squeeze) := by
  rw [rankOutput_fused cfg batch hrmpad hfused model hrank]
  show ((Tensor.vec (shardLogProbs cfg batch model rank ++ [])).squeeze,
    (Tensor.vec (shardEntropy cfg batch model rank ++ [])).squeeze) = _
  rw [append_nil, append_nil]

/-- A shard on which the triton head leaves the positions in place. -/
def KeepsPositions (backend : FusedBackend) : Prop :=
  backend = .triton → localLength cfg batch ≠ 1

theorem localOutputs_fused (hrmpad : cfg.useRemovePadding = true)
    (hfused : cfg.useFusedKernels = some backend) (hkeeps : KeepsPositions cfg batch backend)
    (model : TextModel V H) (hrank : rank < cfg.spSize) :
    localOutputs (rankOutput cfg batch model rank).1 (rankOutput cfg batch model rank).2 =
      (.vec (shardLogProbs cfg batch model rank), .vec (shardEntropy cfg batch model rank)) := by
  cases backend with
  | torch => exact localOutputs_torch cfg batch hrmpad hfused model hrank
  | triton =>
    have hlen := hkeeps rfl
    rw [localOutputs_triton cfg batch hrmpad hfused model hrank,
      squeeze_vec (by rw [length_shardLogProbs cfg batch model hrank]; exact hlen),
      squeeze_vec (by rw [length_shardEntropy cfg batch model hrank]; exact hlen)]

theorem flatMap_shardLogProbs :
    (range cfg.spSize).flatMap (shardLogProbs cfg batch model) =
      logprobsFromLogits (fusedLogits batch model.lmHead (paddedHidden cfg batch model.hidden))
        (fusedLabels cfg batch) := by
  have hlogits : (range cfg.spSize).flatMap (fun r => fusedLogits batch model.lmHead
      (sliceInputTensor cfg.spSize r (paddedHidden cfg batch model.hidden))) =
        fusedLogits batch model.lmHead (paddedHidden cfg batch model.hidden) := by
    unfold fusedLogits
    rw [← map_flatMap, flatMap_slices cfg batch _ (length_paddedHidden cfg batch _)]
  unfold shardLogProbs logprobsFromLogits
  rw [zipWith_flatMap, hlogits]
  · rfl
  · intro r hr
    have hrank := mem_range.1 hr
    unfold fusedLogits
    rw [length_map, length_roll, length_sliceInputTensor hrank, length_sliceInputTensor hrank,
      length_paddedHidden]

theorem flatMap_shardEntropy :
    (range cfg.spSize).flatMap (shardEntropy cfg batch model) =
      entropyFromLogits (fusedLogits batch model.lmHead (paddedHidden cfg batch model.hidden)) := by
  unfold shardEntropy entropyFromLogits fusedLogits
  rw [← map_flatMap, ← map_flatMap,
    flatMap_slices cfg batch _ (length_paddedHidden cfg batch _)]

theorem length_fusedLabels : (fusedLabels cfg batch).length = (paddedIds cfg batch).length := by
  unfold fusedLabels
  have hflat := congrArg length (flatMap_slices cfg batch (paddedIds cfg batch) rfl)
  rw [length_flatMap] at hflat ⊢
  simp only [length_roll]
  exact hflat

theorem forwardStep_fused (hrmpad : cfg.useRemovePadding = true)
    (hfused : cfg.useFusedKernels = some backend) (hkeeps : KeepsPositions cfg batch backend)
    (model : TextModel V H) :
    forwardStep cfg model batch =
      .ok (packedResult batch model (fun z v => z v / batch.temperature)
        ((fusedLabels cfg batch).take batch.packedIds.length)) := by
  have hlogits : (fusedLogits batch model.lmHead (paddedHidden cfg batch model.hidden)).length =
      (paddedIds cfg batch).length := by
    unfold fusedLogits
    rw [length_map, length_paddedHidden]
  have hlogProbs : (logprobsFromLogits (fusedLogits batch model.lmHead
      (paddedHidden cfg batch model.hidden)) (fusedLabels cfg batch)).length =
        (paddedIds cfg batch).length := by
    unfold logprobsFromLogits
    rw [length_zipWith, hlogits, length_fusedLabels, Nat.min_self]
  have hentropy : (entropyFromLogits (fusedLogits batch model.lmHead
      (paddedHidden cfg batch model.hidden))).length = (paddedIds cfg batch).length := by
    unfold entropyFromLogits
    rw [length_map, hlogits]
  rw [forwardStep_packed cfg batch hrmpad model fun r hr =>
      localOutputs_fused cfg batch hrmpad hfused hkeeps model hr,
    flatMap_shardLogProbs, flatMap_shardEntropy, unpadTensor_padded cfg batch _ hlogProbs,
    unpadTensor_padded cfg batch _ hentropy]
  have htake : (fusedLogits batch model.lmHead (paddedHidden cfg batch model.hidden)).take
      batch.packedIds.length = fusedLogits batch model.lmHead (batch.packedHidden model.hidden) := by
    unfold fusedLogits
    rw [← map_take, take_paddedHidden]
  unfold logprobsFromLogits entropyFromLogits
  rw [take_zipWith, ← map_take, htake]
  rfl

/-- With one position a shard, the triton head leaves a tensor that cannot be nested. -/
theorem forwardStep_triton_one (hrmpad : cfg.useRemovePadding = true)
    (hfused : cfg.useFusedKernels = some .triton) (hone : localLength cfg batch = 1)
    (model : TextModel V H) : forwardStep cfg model batch = .error .indexError := by
  obtain ⟨k, hk⟩ : ∃ k, cfg.spSize = k + 1 := ⟨cfg.spSize - 1, by
    have := cfg.spSize_pos
    omega⟩
  obtain ⟨a, ha⟩ := squeeze_vec_one
    ((length_shardLogProbs cfg batch model cfg.spSize_pos).trans hone)
  rw [forwardStep_eq]
  unfold prepareModelOutputs
  rw [if_pos hrmpad, hk, range_succ_eq_map]
  simp only [map_cons, localOutputs_triton cfg batch hrmpad hfused model cfg.spSize_pos, ha]
  rfl

/-! ## One padded row for each sequence -/

theorem spSize_eq_one (hpadded : cfg.useRemovePadding = false) : cfg.spSize = 1 := by
  have hpos := cfg.spSize_pos
  by_contra hne
  have hrmpad := cfg.accepted (by omega)
  rw [hpadded] at hrmpad
  cases hrmpad

/-- A row of the padded batch, as the base model sees it. -/
def maskedRow (hidden : List (Fin V) → H) (maxSeqLen : Nat) (s : List (Fin V)) : List H :=
  maskedHidden hidden []
    ((s ++ List.replicate (maxSeqLen - s.length) batch.padTokenId).zip
      (List.replicate s.length 1 ++
        List.replicate (maxSeqLen - (List.replicate s.length 1).length) 0))

omit [NeZero V] in
theorem take_maskedRow (hidden : List (Fin V) → H) (maxSeqLen : Nat) (s : List (Fin V)) :
    (maskedRow batch hidden maxSeqLen s).take s.length = hiddenOf hidden s := by
  unfold maskedRow
  rw [zip_append length_replicate.symm, maskedHidden_replicate]
  exact take_left' (length_hiddenOf hidden s)

/-- `max_seq_len`. -/
def maxSeqLen : Nat := batch.seqLens.foldl max 0

section

variable (hpadded : cfg.useRemovePadding = false)
include hpadded

theorem forwardStep_padded (model : TextModel V H) :
    forwardStep cfg model batch = prepareModelOutputs cfg batch [rankOutput cfg batch model 0] := by
  rw [forwardStep_eq, spSize_eq_one cfg hpadded]
  rfl

theorem baseForward_padded (hidden : List (Fin V) → H) (ranks : List (ModelInputs V)) :
    baseForward hidden ranks 0 (prepareModelInputs cfg batch 0).1 =
      batch.inputIds.map (maskedRow batch hidden (maxSeqLen batch)) := by
  have hmask : (prepareModelInputs cfg batch 0).1.attentionMask = some (toPaddedTensor 0
      (maxSeqLen batch) (batch.inputIds.map fun s => replicate s.length 1)) := by
    unfold prepareModelInputs
    rw [if_neg (by rw [hpadded]; exact Bool.false_ne_true)]
    rfl
  have hids : (prepareModelInputs cfg batch 0).1.inputIds =
      toPaddedTensor batch.padTokenId (maxSeqLen batch) batch.inputIds := by
    unfold prepareModelInputs
    rw [if_neg (by rw [hpadded]; exact Bool.false_ne_true)]
    rfl
  unfold baseForward
  rw [hmask, hids]
  unfold toPaddedTensor
  dsimp only
  rw [map_map, zipWith_map, zipWith_self]
  rfl

theorem args_padded : (prepareModelInputs cfg batch 0).2 =
      { inputIdsRmpadRolled := roll batch.packedIds
        temperature := replicate batch.inputIds.length batch.temperature
        padSize := 0 } := by
  unfold prepareModelInputs
  rw [if_neg (by rw [hpadded]; exact Bool.false_ne_true)]
  rfl

end

omit [NeZero V] in
/-- `torch.nested.narrow` and `torch.cat`: the padding is cut off and the rows are packed. -/
theorem flatten_narrow {β : Type} (hidden : List (Fin V) → H) (f : H → β) :
    (zipWith List.take batch.seqLens
      (batch.inputIds.map fun s => (maskedRow batch hidden (maxSeqLen batch) s).map f)).flatten =
        (batch.packedHidden hidden).map f := by
  unfold MicroBatch.seqLens MicroBatch.packedHidden
  rw [zipWith_map, zipWith_self, map_flatten, map_map]
  congr 1
  apply map_congr_left
  intro s _
  show ((maskedRow batch hidden (maxSeqLen batch) s).map f).take s.length = (hiddenOf hidden s).map f
  rw [← map_take, take_maskedRow]

theorem forwardStep_plain_padded (hpadded : cfg.useRemovePadding = false)
    (hplain : cfg.useFusedKernels = none) (model : TextModel V H) :
    forwardStep cfg model batch =
      .ok (packedResult batch model (fun z => divTemperature z batch.temperature)
        (roll batch.packedIds)) := by
  have hout : rankOutput cfg batch model 0 =
      (.logits ((batch.inputIds.map (maskedRow batch model.hidden (maxSeqLen batch))).map
        fun row => row.map model.lmHead),
        { inputIdsRmpadRolled := roll batch.packedIds
          temperature := replicate batch.inputIds.length batch.temperature
          padSize := 0 }) := by
    unfold rankOutput forward
    rw [baseForward_padded cfg batch hpadded, args_padded cfg batch hpadded, hplain]
  rw [forwardStep_padded cfg batch hpadded, hout]
  unfold prepareModelOutputs
  rw [if_neg (by rw [hpadded]; exact Bool.false_ne_true)]
  dsimp only
  have hlogits : zipWith (fun row t => row.map fun z => divTemperature z t)
      ((batch.inputIds.map (maskedRow batch model.hidden (maxSeqLen batch))).map
        fun row => row.map model.lmHead)
      (replicate batch.inputIds.length batch.temperature) =
        batch.inputIds.map fun s => (maskedRow batch model.hidden (maxSeqLen batch) s).map
          fun h => divTemperature (model.lmHead h) batch.temperature := by
    have hlen : ((batch.inputIds.map (maskedRow batch model.hidden (maxSeqLen batch))).map
      fun row => row.map model.lmHead).length = batch.inputIds.length := by
      rw [length_map, length_map]
    rw [← hlen, zipWith_replicate_length, map_map, map_map]
    apply map_congr_left
    intro s _
    show ((maskedRow batch model.hidden (maxSeqLen batch) s).map model.lmHead).map _ = _
    rw [map_map]
    rfl
  have hentropy : (batch.inputIds.map fun s => (maskedRow batch model.hidden (maxSeqLen batch) s).map
      fun h => divTemperature (model.lmHead h) batch.temperature).map entropyFromLogits =
        batch.inputIds.map fun s => (maskedRow batch model.hidden (maxSeqLen batch) s).map
          fun h => Softmax.entropy (divTemperature (model.lmHead h) batch.temperature) := by
    rw [map_map]
    apply map_congr_left
    intro s _
    exact map_map
  rw [hlogits, hentropy, flatten_narrow batch, flatten_narrow batch]
  unfold packedResult entropyFromLogits
  dsimp only
  rw [map_map]
  rfl

theorem forwardStep_fused_padded (hpadded : cfg.useRemovePadding = false)
    (hfused : cfg.useFusedKernels = some backend) (model : TextModel V H)
    (logProbs entropy : List (List ℝ)) :
    forwardStep cfg model batch ≠ .ok { logProbs := .jagged logProbs, entropy := .jagged entropy } := by
  intro h
  rw [forwardStep_padded cfg batch hpadded] at h
  unfold prepareModelOutputs at h
  rw [if_neg (by rw [hpadded]; exact Bool.false_ne_true)] at h
  unfold rankOutput forward at h
  rw [hfused] at h
  cases backend with
  | torch =>
    cases h
  | triton => cases h

end Packed

end Verl.Engine
