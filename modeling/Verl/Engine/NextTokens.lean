import Verl.Engine.LogProbs

/-! # When the engine returns the log-probs of the next tokens

* `Correct`: every row has the log-prob of token `t + 1` at position `t` and the entropy at
  every position.
* `correct_packedResult_iff`: this, for a result computed on the packed row. -/

namespace Verl.Engine

open List

variable {V : Nat} {H : Type}

/-- The logits at position `t` of `s`, scaled as the plain path does. -/
noncomputable def expectedLogits (model : TextModel V H) (batch : MicroBatch V) (s : List (Fin V))
    (t : Nat) : Fin V → ℝ :=
  divTemperature (model.lmHead (model.hidden (s.take (t + 1)))) batch.temperature

/-- Jagged log-probs that are those of the next token at every position but the last one of each
sequence, and jagged entropies. -/
def Correct (model : TextModel V H) (batch : MicroBatch V)
    (r : Except PyErr LogProbsAndEntropy) : Prop :=
  ∃ logProbs entropy, r = .ok { logProbs := .jagged logProbs, entropy := .jagged entropy } ∧
    logProbs.map List.length = batch.seqLens ∧ entropy.map List.length = batch.seqLens ∧
    ∀ b s, batch.inputIds[b]? = some s → ∀ t < s.length,
      (∀ token, s[t + 1]? = some token →
        entry logProbs b t = some (Softmax.logSoftmax (expectedLogits model batch s t) token)) ∧
      entry entropy b t = some (Softmax.entropy (expectedLogits model batch s t))

/-! ## Entries of the packed row -/

section Entries

variable {batch : MicroBatch V} {b t : Nat} {s : List (Fin V)}

theorem seqLens_getElem? (hs : batch.inputIds[b]? = some s) : batch.seqLens[b]? = some s.length := by
  unfold MicroBatch.seqLens
  rw [getElem?_map, hs]
  rfl

theorem packedIds_getElem? (hs : batch.inputIds[b]? = some s) (ht : t < s.length) :
    batch.packedIds[rowStart batch.seqLens b + t]? = s[t]? :=
  getElem?_flatten_add hs ht

theorem packedHidden_getElem? (hidden : List (Fin V) → H) (hs : batch.inputIds[b]? = some s)
    (ht : t < s.length) :
    (batch.packedHidden hidden)[rowStart batch.seqLens b + t]? =
      some (hidden (s.take (t + 1))) := by
  have hlens : batch.seqLens = (batch.inputIds.map (hiddenOf hidden)).map length := by
    rw [map_map]
    apply map_congr_left
    intro s _
    exact (length_hiddenOf hidden s).symm
  have hrow : (batch.inputIds.map (hiddenOf hidden))[b]? = some (hiddenOf hidden s) := by grind
  unfold MicroBatch.packedHidden
  rw [hlens, getElem?_flatten_add hrow (by rw [length_hiddenOf]; exact ht)]
  unfold hiddenOf
  rw [getElem?_map, getElem?_range ht]
  rfl

theorem sum_seqLens (batch : MicroBatch V) : batch.seqLens.sum = batch.packedIds.length :=
  length_flatten.symm

theorem rowStart_add_lt_length (hs : batch.inputIds[b]? = some s) (ht : t < s.length) :
    rowStart batch.seqLens b + t < batch.packedIds.length := by
  rw [← sum_seqLens]
  exact rowStart_add_lt (seqLens_getElem? hs) ht

end Entries

theorem correct_packedResult_iff (model : TextModel V H) (batch : MicroBatch V)
    (scale : (Fin V → ℝ) → Fin V → ℝ) {labels : List (Fin V)}
    (hlabels : labels.length = batch.packedIds.length) :
    Correct model batch (.ok (packedResult batch model scale labels)) ↔
      ∀ b s, batch.inputIds[b]? = some s → ∀ t < s.length,
        (∀ token label, s[t + 1]? = some token →
          labels[rowStart batch.seqLens b + t]? = some label →
          Softmax.logSoftmax (scale (model.lmHead (model.hidden (s.take (t + 1))))) label =
            Softmax.logSoftmax (expectedLogits model batch s t) token) ∧
        Softmax.entropy (scale (model.lmHead (model.hidden (s.take (t + 1))))) =
          Softmax.entropy (expectedLogits model batch s t) := by
  set logits := (batch.packedHidden model.hidden).map fun h => scale (model.lmHead h) with hlogits
  have hlogProb : ∀ {b s t label}, batch.inputIds[b]? = some s → t < s.length →
      labels[rowStart batch.seqLens b + t]? = some label →
      entry (batch.seqLens.splitLengths (logprobsFromLogits logits labels)) b t =
        some (Softmax.logSoftmax (scale (model.lmHead (model.hidden (s.take (t + 1))))) label) := by
    intro b s t label hs ht hlabel
    unfold logprobsFromLogits
    rw [entry_splitLengths (seqLens_getElem? hs) ht, getElem?_zipWith, hlabel,
      getElem?_map, packedHidden_getElem? model.hidden hs ht]
    rfl
  have hentropy : ∀ {b s t}, batch.inputIds[b]? = some s → t < s.length →
      entry (batch.seqLens.splitLengths (entropyFromLogits logits)) b t =
        some (Softmax.entropy (scale (model.lmHead (model.hidden (s.take (t + 1)))))) := by
    intro b s t hs ht
    unfold entropyFromLogits
    rw [entry_splitLengths (seqLens_getElem? hs) ht, getElem?_map, hlogits,
      getElem?_map, packedHidden_getElem? model.hidden hs ht]
    rfl
  have hlen : logits.length = batch.packedIds.length := by
    rw [hlogits, length_map, batch.length_packedHidden]
  constructor
  · rintro ⟨logProbs, entropy, hr, -, -, h⟩ b s hs t ht
    cases hr
    refine ⟨fun token label htoken hlabel => ?_, ?_⟩
    · grind
    · grind
  · intro h
    refine ⟨_, _, rfl, ?_, ?_, fun b s hs t ht => ⟨fun token htoken => ?_, ?_⟩⟩
    · apply map_splitLengths_length
      unfold logprobsFromLogits
      rw [length_zipWith, hlen, hlabels, Nat.min_self, sum_seqLens]
    · apply map_splitLengths_length
      unfold entropyFromLogits
      rw [length_map, hlen, sum_seqLens]
    · have hlt := rowStart_add_lt_length hs ht
      obtain ⟨label, hlabel⟩ : ∃ label, labels[rowStart batch.seqLens b + t]? = some label :=
        ⟨_, getElem?_eq_getElem (by rw [hlabels]; exact hlt)⟩
      rw [hlogProb hs ht hlabel, (h b s hs t ht).1 token label htoken hlabel]
    · rw [hentropy hs ht, (h b s hs t ht).2]

/-! ## Labels -/

theorem roll_getElem? {α : Type} {xs : List α} {i : Nat} (h : i < xs.length) :
    (roll xs)[i]? = if i + 1 = xs.length then xs[0]? else xs[i + 1]? := by
  unfold roll
  rw [getElem?_rotate h]
  by_cases hlast : i + 1 = xs.length
  · rw [if_pos hlast, hlast, Nat.mod_self]
  · rw [if_neg hlast, Nat.mod_eq_of_lt (by omega)]

/-- The labels of the plain path are the next tokens of the packed row. -/
theorem roll_packedIds_getElem? {batch : MicroBatch V} {b t : Nat} {s : List (Fin V)}
    {token label : Fin V} (hs : batch.inputIds[b]? = some s) (htoken : s[t + 1]? = some token)
    (hlabel : (roll batch.packedIds)[rowStart batch.seqLens b + t]? = some label) :
    label = token := by
  have ht : t + 1 < s.length := (List.getElem?_eq_some_iff.1 htoken).1
  have hnext := rowStart_add_lt_length hs ht
  rw [roll_getElem? (by omega), if_neg (by omega), Nat.add_assoc, packedIds_getElem? hs ht, htoken]
    at hlabel
  exact (Option.some.inj hlabel).symm

section Fused

variable [NeZero V] (cfg : EngineConfig) (batch : MicroBatch V)

theorem mul_localLength : cfg.spSize * localLength cfg batch = (paddedIds cfg batch).length :=
  Nat.mul_div_cancel' (dvd_length_paddedIds cfg batch)

/-- Each shard ends with the label of its own first token. -/
theorem fusedLabels_getElem? {p : Nat} (hp : p < (paddedIds cfg batch).length) :
    (fusedLabels cfg batch)[p]? =
      if localLength cfg batch ∣ p + 1 then (paddedIds cfg batch)[p + 1 - localLength cfg batch]?
      else (paddedIds cfg batch)[p + 1]? := by
  set len := localLength cfg batch with hlen
  have hmul := mul_localLength cfg batch
  have hpos : 0 < len := by grind
  have hdiv := Nat.div_add_mod' p len
  have hmod := Nat.mod_lt p hpos
  have hrank : p / len < cfg.spSize := Nat.div_lt_of_lt_mul (by rw [Nat.mul_comm, hmul]; exact hp)
  set rank := p / len
  set i := p % len
  -- the shard that holds position `p`, rolled
  set shards := (range cfg.spSize).map fun r =>
    roll (sliceInputTensor cfg.spSize r (paddedIds cfg batch)) with hshards
  have hlength : ∀ r < cfg.spSize,
      (sliceInputTensor cfg.spSize r (paddedIds cfg batch)).length = len :=
    fun r hr => length_sliceInputTensor hr
  have hstart : rowStart (shards.map length) rank = rank * len := by
    apply rowStart_of_forall_eq
    · intro n hn
      rw [hshards, map_map] at hn
      obtain ⟨r, hr, rfl⟩ := mem_map.1 hn
      show (roll _).length = len
      rw [length_roll, hlength r (mem_range.1 hr)]
    · grind
  have hshard : shards[rank]? =
      some (roll (sliceInputTensor cfg.spSize rank (paddedIds cfg batch))) := by grind
  have hentry : ∀ j < len, (sliceInputTensor cfg.spSize rank (paddedIds cfg batch))[j]? =
      (paddedIds cfg batch)[rank * len + j]? :=
    fun j hj => getElem?_getSlice _ _ hj
  have hflat : (fusedLabels cfg batch)[p]? =
      (roll (sliceInputTensor cfg.spSize rank (paddedIds cfg batch)))[i]? := by
    have hat := getElem?_flatten_add hshard (t := i) (by
      rw [length_roll, hlength rank hrank]
      exact hmod)
    rw [hstart, hdiv] at hat
    unfold fusedLabels
    rw [flatMap_def]
    exact hat
  rw [hflat, roll_getElem? (by rw [hlength rank hrank]; exact hmod), hlength rank hrank]
  by_cases hlast : i + 1 = len
  · have hnext : p + 1 = (rank + 1) * len := by
      rw [Nat.succ_mul]
      omega
    rw [if_pos hlast, if_pos ⟨rank + 1, by rw [hnext, Nat.mul_comm]⟩, hentry 0 hpos, hnext,
      Nat.succ_mul, Nat.add_sub_cancel]
    rfl
  · have hnot : ¬len ∣ p + 1 := by
      intro hdvd
      have hzero := Nat.mod_eq_zero_of_dvd hdvd
      rw [← hdiv, Nat.add_assoc, Nat.mul_add_mod', Nat.mod_eq_of_lt (by omega)] at hzero
      omega
    rw [if_neg hlast, if_neg hnot, hentry (i + 1) (by omega), ← Nat.add_assoc, hdiv]

theorem length_take_fusedLabels :
    ((fusedLabels cfg batch).take batch.packedIds.length).length = batch.packedIds.length := by
  rw [length_take, length_fusedLabels, length_paddedIds]
  omega

theorem paddedIds_getElem? {p : Nat} (hp : p < batch.packedIds.length) :
    (paddedIds cfg batch)[p]? = batch.packedIds[p]? :=
  getElem?_append_left hp

/-- The label of the fused head at a position that is not the last one of its sequence. -/
theorem fusedLabels_at {b t : Nat} {s : List (Fin V)} {token : Fin V}
    (hs : batch.inputIds[b]? = some s) (htoken : s[t + 1]? = some token) :
    ((fusedLabels cfg batch).take batch.packedIds.length)[rowStart batch.seqLens b + t]? =
      if localLength cfg batch ∣ rowStart batch.seqLens b + t + 1 then
        batch.packedIds[rowStart batch.seqLens b + t + 1 - localLength cfg batch]?
      else some token := by
  have ht : t + 1 < s.length := (List.getElem?_eq_some_iff.1 htoken).1
  have hnext := rowStart_add_lt_length hs ht
  have hlen := length_paddedIds cfg batch
  rw [getElem?_take_of_lt (by omega), fusedLabels_getElem? cfg batch (by omega)]
  by_cases hdvd : localLength cfg batch ∣ rowStart batch.seqLens b + t + 1
  · have hle := Nat.le_of_dvd (Nat.succ_pos _) hdvd
    have hpos : 0 < localLength cfg batch := Nat.pos_of_dvd_of_pos hdvd (Nat.succ_pos _)
    rw [if_pos hdvd, if_pos hdvd, paddedIds_getElem? cfg batch (by omega)]
  · rw [if_neg hdvd, if_neg hdvd, paddedIds_getElem? cfg batch (by omega), Nat.add_assoc,
      packedIds_getElem? hs ht, htoken]

/-! ## When the fused head is right -/

/-- At no position does the model prefer one token to another. -/
def UniformLogits (model : TextModel V H) (batch : MicroBatch V) : Prop :=
  ∀ s ∈ batch.inputIds, ∀ t < s.length, ∀ v w,
    model.lmHead (model.hidden (s.take (t + 1))) v = model.lmHead (model.hidden (s.take (t + 1))) w

/-- Where a shard ends inside a sequence, the first token of the shard has the same logit as the
next token. -/
def ShardLabelsAgree (model : TextModel V H) (len : Nat) : Prop :=
  ∀ b s, batch.inputIds[b]? = some s → ∀ t token label, s[t + 1]? = some token →
    len ∣ rowStart batch.seqLens b + t + 1 →
    batch.packedIds[rowStart batch.seqLens b + t + 1 - len]? = some label →
    model.lmHead (model.hidden (s.take (t + 1))) label =
      model.lmHead (model.hidden (s.take (t + 1))) token

structure FusedAgrees (model : TextModel V H) (backend : FusedBackend) : Prop where
  useRemovePadding : cfg.useRemovePadding = true
  positions : KeepsPositions cfg batch backend
  temperature : 1e-8 ≤ batch.temperature ∨ UniformLogits model batch
  labels : ShardLabelsAgree batch model (localLength cfg batch)

variable {cfg batch} {model : TextModel V H}

omit [NeZero V] in
theorem expectedLogits_of_le (h : 1e-8 ≤ batch.temperature) (s : List (Fin V)) (t : Nat) :
    expectedLogits model batch s t =
      fun v => model.lmHead (model.hidden (s.take (t + 1))) v / batch.temperature := by
  unfold expectedLogits divTemperature
  rw [max_eq_left h]

omit [NeZero V] in
theorem expectedLogits_of_lt (h : batch.temperature < 1e-8) (s : List (Fin V)) (t : Nat) :
    expectedLogits model batch s t =
      fun v => model.lmHead (model.hidden (s.take (t + 1))) v / 1e-8 := by
  unfold expectedLogits divTemperature
  rw [max_eq_right h.le]

omit [NeZero V] in
theorem logSoftmax_div_eq_iff {z : Fin V → ℝ} {t : ℝ} (ht : 0 < t) {v w : Fin V} :
    Softmax.logSoftmax (fun u => z u / t) v = Softmax.logSoftmax (fun u => z u / t) w ↔
      z v = z w := by
  rw [Softmax.logSoftmax_eq_iff]
  exact div_left_inj' ht.ne'

section

variable (h : UniformLogits model batch) {s : List (Fin V)} (hs : s ∈ batch.inputIds) {t : Nat}
  (ht : t < s.length)
include h hs ht

/-- Uniform logits give the same values at any temperature and for any label. -/
theorem logSoftmax_of_uniform (v w : Fin V) : Softmax.logSoftmax
        (fun u => model.lmHead (model.hidden (s.take (t + 1))) u / batch.temperature) v =
      Softmax.logSoftmax (expectedLogits model batch s t) w := by
  have hconst := h s hs t ht
  calc _ = Softmax.logSoftmax
        (fun u => model.lmHead (model.hidden (s.take (t + 1))) u / batch.temperature) w :=
        (logSoftmax_div_eq_iff batch.temperature_pos).2 (hconst v w)
    _ = _ := Softmax.logSoftmax_of_const (fun i j => by rw [hconst i j])
        (fun i j => by unfold expectedLogits divTemperature; rw [hconst i j]) w

theorem entropy_of_uniform : Softmax.entropy
        (fun u => model.lmHead (model.hidden (s.take (t + 1))) u / batch.temperature) =
      Softmax.entropy (expectedLogits model batch s t) := by
  have hconst := h s hs t ht
  exact Softmax.entropy_of_const (fun i j => by rw [hconst i j])
    (fun i j => by unfold expectedLogits divTemperature; rw [hconst i j])

end

/-- A temperature below the clamp shows in the entropies. -/
theorem uniformLogits_of_entropy (hlt : batch.temperature < 1e-8)
    (h : ∀ (b : Nat) (s : List (Fin V)), batch.inputIds[b]? = some s → ∀ t < s.length,
      Softmax.entropy
          (fun v => model.lmHead (model.hidden (s.take (t + 1))) v / batch.temperature) =
        Softmax.entropy (expectedLogits model batch s t)) : UniformLogits model batch := by
  intro s hs t ht v w
  obtain ⟨b, hb⟩ := mem_iff_getElem?.1 hs
  have hentropy := h b s hb t ht
  rw [expectedLogits_of_lt hlt] at hentropy
  exact (Softmax.entropy_div_eq_iff batch.temperature_pos (by norm_num) hlt.ne).1 hentropy v w

theorem correct_fused_of_agrees {backend : FusedBackend}
    (hfused : cfg.useFusedKernels = some backend) (h : FusedAgrees cfg batch model backend) :
    Correct model batch (forwardStep cfg model batch) := by
  rw [forwardStep_fused cfg batch h.useRemovePadding hfused h.positions model,
    correct_packedResult_iff model batch _ (length_take_fusedLabels cfg batch)]
  intro b s hs t ht
  have hmem := mem_of_getElem? hs
  rcases h.temperature with hle | huniform
  · rw [expectedLogits_of_le hle]
    refine ⟨fun token label htoken hlabel => ?_, rfl⟩
    rw [logSoftmax_div_eq_iff batch.temperature_pos]
    rw [fusedLabels_at cfg batch hs htoken] at hlabel
    by_cases hdvd : localLength cfg batch ∣ rowStart batch.seqLens b + t + 1
    · rw [if_pos hdvd] at hlabel
      exact h.labels b s hs t token label htoken hdvd hlabel
    · grind
  · exact ⟨fun token label _ _ => logSoftmax_of_uniform huniform hmem ht label token,
      entropy_of_uniform huniform hmem ht⟩

theorem agrees_of_correct_fused {backend : FusedBackend}
    (hfused : cfg.useFusedKernels = some backend)
    (h : Correct model batch (forwardStep cfg model batch)) :
    FusedAgrees cfg batch model backend := by
  have hrmpad : cfg.useRemovePadding = true := by
    by_contra hpadded
    obtain ⟨logProbs, entropy, hr, -⟩ := h
    exact forwardStep_fused_padded cfg batch (Bool.eq_false_of_not_eq_true hpadded) hfused model
      logProbs entropy hr
  have hpositions : KeepsPositions cfg batch backend := by
    intro htriton hone
    subst htriton
    obtain ⟨logProbs, entropy, hr, -⟩ := h
    rw [forwardStep_triton_one cfg batch hrmpad hfused hone model] at hr
    cases hr
  rw [forwardStep_fused cfg batch hrmpad hfused hpositions model,
    correct_packedResult_iff model batch _ (length_take_fusedLabels cfg batch)] at h
  have htemperature : 1e-8 ≤ batch.temperature ∨ UniformLogits model batch := by
    rcases le_or_gt 1e-8 batch.temperature with hle | hlt
    · exact .inl hle
    · exact .inr (uniformLogits_of_entropy hlt fun b s hs t ht => (h b s hs t ht).2)
  refine ⟨hrmpad, hpositions, htemperature, ?_⟩
  intro b s hs t token label htoken hdvd hlabel
  have ht : t + 1 < s.length := (List.getElem?_eq_some_iff.1 htoken).1
  rcases htemperature with hle | huniform
  · have hlogProb := (h b s hs t (by omega)).1 token label htoken (by
      rw [fusedLabels_at cfg batch hs htoken, if_pos hdvd]
      exact hlabel)
    rw [expectedLogits_of_le hle] at hlogProb
    exact (logSoftmax_div_eq_iff batch.temperature_pos).1 hlogProb
  · exact huniform s (mem_of_getElem? hs) t (by omega) label token

end Fused

variable [NeZero V]

theorem correct_plain (cfg : EngineConfig) (model : TextModel V H) (batch : MicroBatch V)
    (hplain : cfg.useFusedKernels = none) : Correct model batch (forwardStep cfg model batch) := by
  have hstep : forwardStep cfg model batch =
      .ok (packedResult batch model (fun z => divTemperature z batch.temperature)
        (roll batch.packedIds)) := by
    cases hrmpad : cfg.useRemovePadding with
    | true => exact forwardStep_plain_packed cfg batch hrmpad hplain model
    | false => exact forwardStep_plain_padded cfg batch hrmpad hplain model
  rw [hstep, correct_packedResult_iff model batch _ (length_roll _)]
  intro b s hs t ht
  refine ⟨fun token label htoken hlabel => ?_, rfl⟩
  rw [roll_packedIds_getElem? hs htoken hlabel]
  rfl

/-- Two ranks share the packed row and run the fused head. -/
def fusedOnTwo : EngineConfig where
  useRemovePadding := true
  useFusedKernels := some .torch
  spSize := 2
  spSize_pos := Nat.two_pos
  accepted := fun _ => rfl

/-- The logit of a token is its number. -/
def tokenLogits : TextModel 2 Unit where
  hidden := fun _ => ()
  lmHead := fun _ v => (v.val : ℝ)

def microBatchOf (inputIds : List (List (Fin 2))) (ne_nil : inputIds ≠ [])
    (seq_ne_nil : ∀ s ∈ inputIds, s ≠ []) : MicroBatch 2 where
  inputIds := inputIds
  temperature := 1
  padTokenId := 0
  maxResponseLength := 1
  ne_nil := ne_nil
  seq_ne_nil := seq_ne_nil
  temperature_pos := Real.zero_lt_one

end Verl.Engine
