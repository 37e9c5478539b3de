import Verl.Lib.Numerals

/-!
# Resumed generation (`experimental/fully_async_policy/fully_async_rollouter.py`)

`FullyAsyncLLMServerClient.generate` sends a prompt again, with the tokens it has so far, until the
server is not aborted or the limit on tokens is reached.  The limit that is left is written into
the caller's `sampling_params`.

    what comes back is the uninterrupted output, no longer than the limit, and `sampling_params`
    are as before  ↔  partial rollout is on, or the first call has all of it; and there is no
    limit, or no token                                                       (resumesUnseen_iff)

`server i` is what the `i`-th call returns.  `F` are floats, `ρ` the routed experts of a token.
-/

namespace Verl

open List

namespace PartialRollout

variable {F ρ π : Type}

/-- Of a limit that is there, the value may be `None`.  `others` are not read. -/
@[ext]
structure SamplingParams (π : Type) where
  maxTokens : Option (Option Int)
  maxNewTokens : Option (Option Int)
  others : π

/-- `globalSteps` is in `extra_fields`. -/
structure TokenOutput (F ρ : Type) where
  tokenIds : List Nat
  logProbs : Option (List F)
  routedExperts : Option (List ρ)
  numPreempted : Option Int
  stopReason : Option String
  globalSteps : Option Int

structure FinalOutput (F ρ : Type) where
  tokenIds : List Nat := []
  logProbs : List F := []
  routedExperts : Option (List ρ) := none
  numPreempted : Int := 0
  stopReason : Option String := none
  minGlobalSteps : Option Int := none
  maxGlobalSteps : Option Int := none

inductive LimitKey where
  | maxTokens
  | maxNewTokens

namespace SamplingParams

def limitKey (params : SamplingParams π) : Option LimitKey :=
  if params.maxTokens.isSome then some .maxTokens
  else if params.maxNewTokens.isSome then some .maxNewTokens
  else none

def get (params : SamplingParams π) : LimitKey → Option Int
  | .maxTokens => params.maxTokens.join
  | .maxNewTokens => params.maxNewTokens.join

def set (params : SamplingParams π) (value : Int) : LimitKey → SamplingParams π
  | .maxTokens => { params with maxTokens := some (some value) }
  | .maxNewTokens => { params with maxNewTokens := some (some value) }

/-- `limit_key` and `original_max_tokens`, when there are both. -/
def limit (params : SamplingParams π) : Option (LimitKey × Int) :=
  params.limitKey.bind fun key => (params.get key).map fun value => (key, value)

end SamplingParams

/-- The update of `final_output`. -/
def FinalOutput.merge (final : FinalOutput F ρ) (output : TokenOutput F ρ) : FinalOutput F ρ where
  tokenIds := final.tokenIds ++ output.tokenIds
  logProbs := final.logProbs ++ output.logProbs.getD []
  routedExperts :=
    match output.routedExperts with
    | some experts =>
      if output.tokenIds.isEmpty then final.routedExperts
      else match final.routedExperts with
        | none => some experts
        | some before => some (before ++ experts.drop (experts.length - output.tokenIds.length))
    | none => final.routedExperts
  numPreempted := final.numPreempted + output.numPreempted.getD 0
  stopReason := output.stopReason
  minGlobalSteps := final.minGlobalSteps.or output.globalSteps
  maxGlobalSteps := output.globalSteps

def aborted (output : TokenOutput F ρ) : Bool :=
  output.stopReason == some "aborted" || output.stopReason == some "abort"

variable (server : Nat → List Nat → SamplingParams π → TokenOutput F ρ) (partialRollout : Bool)
  (promptIds : List Nat)

/-- The loop from call `i` on, for at most `calls` calls, with what `sampling_params` are in the
end. -/
def generateLoop (limit : Option (LimitKey × Int)) :
    (calls i : Nat) → FinalOutput F ρ → SamplingParams π → Option (FinalOutput F ρ × SamplingParams π)
  | 0, _, _, _ => none
  | calls + 1, i, final, params =>
    let output := server i (promptIds ++ final.tokenIds) params
    let final := final.merge output
    let params :=
      match limit with
      | some (key, maxTokens) => params.set (maxTokens - final.tokenIds.length) key
      | none => params
    if limit.any fun l => decide (l.2 ≤ (final.tokenIds.length : Int)) then
      some ({ final with stopReason := some "length" }, params)
    else if !aborted output || !partialRollout then some (final, params)
    else generateLoop limit calls (i + 1) final params

def generate (calls : Nat) (params : SamplingParams π) : Option (FinalOutput F ρ × SamplingParams π) :=
  generateLoop server partialRollout promptIds params.limit calls 0 {} params

/-! ## A server that continues -/

/-- What the server is asked with when it has returned `n` tokens. -/
def paramsAt (params : SamplingParams π) (n : Nat) : SamplingParams π :=
  match params.limit with
  | some (key, maxTokens) => params.set (maxTokens - n) key
  | none => params

/-- The uninterrupted output; without log-probs, when they are not asked for. -/
structure Uninterrupted (F : Type) where
  tokens : List Nat
  logProbs : List F
  logProbs_le : logProbs.length ≤ tokens.length

/-- Any call for the rest of the output returns all of it, or is aborted after any part of it. -/
structure Continues (params : SamplingParams π) (full : Uninterrupted F) : Prop where
  limit : ∀ key maxTokens, params.limit = some (key, maxTokens) →
    full.tokens.length ≤ maxTokens.toNat
  rest : ∀ i n, n ≤ full.tokens.length →
    let output := server i (promptIds ++ full.tokens.take n) (paramsAt params n)
    ∃ count, (aborted output = false → full.tokens.length ≤ n + count) ∧
      output.tokenIds = (full.tokens.drop n).take count ∧
      output.logProbs.getD [] = (full.logProbs.drop n).take count

variable {server partialRollout promptIds} {params : SamplingParams π} {full : Uninterrupted F}

theorem set_set (params : SamplingParams π) (v w : Int) (key : LimitKey) :
    (params.set v key).set w key = params.set w key := by cases key <;> rfl

theorem set_eq_self_iff {key : LimitKey} {k : Int} (h : params.limit = some (key, k)) (v : Int) :
    params.set v key = params ↔ v = k := by
  obtain ⟨maxTokens, maxNewTokens, others⟩ := params
  cases maxTokens <;> cases maxNewTokens <;> cases key <;>
    simp_all [SamplingParams.limit, SamplingParams.limitKey, SamplingParams.get, SamplingParams.set]

theorem paramsAt_eq_self_iff (n : Nat) :
    paramsAt params n = params ↔ params.limit = none ∨ n = 0 := by
  unfold paramsAt
  split
  · next key k h =>
    rw [set_eq_self_iff h, h, or_iff_right (Option.some_ne_none _)]
    omega
  · next h => simp [h]

/-- What is there after one more call. -/
theorem Continues.merge (h : Continues server promptIds params full) (i : Nat) {n : Nat}
    (hn : n ≤ full.tokens.length) (final : FinalOutput F ρ)
    (htokens : final.tokenIds = full.tokens.take n) (hlogs : final.logProbs = full.logProbs.take n) :
    let output := server i (promptIds ++ final.tokenIds) (paramsAt params n)
    ∃ n' ≤ full.tokens.length, (final.merge output).tokenIds = full.tokens.take n' ∧
      (final.merge output).logProbs = full.logProbs.take n' ∧
      (aborted output = false → n' = full.tokens.length) := by
  intro output
  obtain ⟨count, hdone, hids, hprobs⟩ := h.rest i n hn
  have hle := full.logProbs_le
  rw [← htokens] at hdone hids hprobs
  refine ⟨min (n + count) full.tokens.length, Nat.min_le_right _ _, ?_, ?_, fun hrun => ?_⟩
  · rw [← take_eq_take_min]
    show final.tokenIds ++ output.tokenIds = _
    rw [hids, htokens, take_add]
  · show final.logProbs ++ output.logProbs.getD [] = _
    rw [hprobs, hlogs, ← take_add, take_eq_take_iff]
    omega
  · have := hdone hrun
    omega

theorem generateLoop_succ {calls i n : Nat} {final : FinalOutput F ρ} :
    generateLoop server partialRollout promptIds params.limit (calls + 1) i final (paramsAt params n) =
      let output := server i (promptIds ++ final.tokenIds) (paramsAt params n)
      let after := paramsAt params (final.merge output).tokenIds.length
      if params.limit.any fun l => decide (l.2 ≤ ((final.merge output).tokenIds.length : Int)) then
        some ({ final.merge output with stopReason := some "length" }, after)
      else if !aborted output || !partialRollout then some (final.merge output, after)
      else generateLoop server partialRollout promptIds params.limit calls (i + 1)
        (final.merge output) after := by
  have hparams : ∀ n', (match params.limit with
      | some (key, maxTokens) => (paramsAt params n).set (maxTokens - (n' : Nat)) key
      | none => paramsAt params n) = paramsAt params n' := by
    intro n'
    unfold paramsAt
    split
    · rw [set_set]
    · rfl
  conv_lhs => unfold generateLoop
  dsimp only
  rw [hparams]

/-- The limit is reached by the whole output only. -/
theorem Continues.eq_of_limit (h : Continues server promptIds params full) {n : Nat}
    (hn : n ≤ full.tokens.length)
    (hlimit : (params.limit.any fun l => decide (l.2 ≤ (n : Int))) = true) :
    n = full.tokens.length := by
  cases hl : params.limit with
  | none => simp [hl] at hlimit
  | some l =>
    have hle := h.limit l.1 l.2 hl
    simp [hl] at hlimit
    omega

/-- **The loop.**  With partial rollout on, it ends at the latest with a call that is not aborted,
with the whole output. -/
theorem Continues.generateLoop (h : Continues server promptIds params full) {m : Nat}
    (hm : ∀ ids ps, aborted (server m ids ps) = false) (calls : Nat) {i n : Nat} (hi : i ≤ m)
    (hcalls : m < i + calls) (hn : n ≤ full.tokens.length) (final : FinalOutput F ρ)
    (htokens : final.tokenIds = full.tokens.take n)
    (hlogs : final.logProbs = full.logProbs.take n) :
    ∃ final' after, PartialRollout.generateLoop server true promptIds params.limit calls i final
        (paramsAt params n) = some (final', after) ∧ final'.tokenIds = full.tokens ∧
      final'.logProbs = full.logProbs ∧ after = paramsAt params full.tokens.length := by
  induction calls generalizing i n final with
  | zero => omega
  | succ calls ih =>
    obtain ⟨n', hn', htokens', hlogs', hdone⟩ := h.merge i hn final htokens hlogs
    have hlen : (final.merge (server i (promptIds ++ final.tokenIds)
        (paramsAt params n))).tokenIds.length = n' := by
      rw [htokens', length_take]
      omega
    have hall : n' = full.tokens.length → full.tokens.take n' = full.tokens ∧
        full.logProbs.take n' = full.logProbs := by
      rintro rfl
      exact ⟨take_length, take_of_length_le full.logProbs_le⟩
    rw [generateLoop_succ]
    dsimp only
    rw [hlen]
    split
    · next hlimit =>
      obtain rfl := h.eq_of_limit hn' hlimit
      exact ⟨_, _, rfl, htokens'.trans (hall rfl).1, hlogs'.trans (hall rfl).2, rfl⟩
    · split
      · next hstop =>
        simp only [Bool.not_true, Bool.or_false, Bool.not_eq_true'] at hstop
        obtain rfl := hdone hstop
        exact ⟨_, _, rfl, htokens'.trans (hall rfl).1, hlogs'.trans (hall rfl).2, rfl⟩
      · next hgoes =>
        have hne : i ≠ m := by
          rintro rfl
          simp [hm] at hgoes
        exact ih (by omega) (by omega) hn' _ htokens' hlogs'

/-- What is asked of `generate`, called with a server of which call `m` is not aborted. -/
def ResumesUnseen (server : Nat → List Nat → SamplingParams π → TokenOutput F ρ)
    (partialRollout : Bool) (promptIds : List Nat) (m : Nat) (params : SamplingParams π)
    (full : Uninterrupted F) : Prop :=
  ∃ final after, generate server partialRollout promptIds (m + 1) params = some (final, after) ∧
    final.tokenIds = full.tokens ∧ final.logProbs = full.logProbs ∧
    (∀ key maxTokens, params.limit = some (key, maxTokens) →
      final.tokenIds.length ≤ maxTokens.toNat) ∧ after = params

/-- Without partial rollout there is one call. -/
theorem Continues.generate_once (h : Continues server promptIds params full) (m : Nat) :
    ∃ final n, generate server false promptIds (m + 1) params = some (final, paramsAt params n) ∧
      n ≤ full.tokens.length ∧ final.tokenIds = full.tokens.take n ∧
      final.logProbs = full.logProbs.take n ∧
      final.tokenIds = (server 0 promptIds params).tokenIds := by
  have hzero : paramsAt params 0 = params := (paramsAt_eq_self_iff 0).2 (.inr rfl)
  obtain ⟨n, hn, htokens, hlogs, -⟩ := h.merge 0 (Nat.zero_le _) {} rfl rfl
  have hlen := congrArg length htokens
  rw [length_take, Nat.min_eq_left hn] at hlen
  have hgen : generate server false promptIds (m + 1) params =
      PartialRollout.generateLoop server false promptIds params.limit (m + 1) 0 {}
        (paramsAt params 0) := by
    rw [hzero]
    rfl
  have hfirst : (FinalOutput.merge {} (server 0 (promptIds ++ []) (paramsAt params 0))).tokenIds =
      (server 0 promptIds params).tokenIds := by
    rw [hzero, append_nil]
    rfl
  rw [hgen, generateLoop_succ]
  dsimp only
  rw [hlen]
  split
  · exact ⟨_, n, rfl, hn, htokens, hlogs, hfirst⟩
  · rw [if_pos (by simp)]
    exact ⟨_, n, rfl, hn, htokens, hlogs, hfirst⟩

/-- **Resumed generation.**  The output is the uninterrupted one exactly when an abort is followed
by another call or comes too late, and the caller's parameters stay exactly when there is no limit
to lower. -/
theorem resumesUnseen_iff {m : Nat} (h : Continues server promptIds params full)
    (hm : ∀ ids ps, aborted (server m ids ps) = false) :
    ResumesUnseen server partialRollout promptIds m params full ↔
      (partialRollout = true ∨ (server 0 promptIds params).tokenIds = full.tokens) ∧
        (params.limit = none ∨ full.tokens = []) := by
  have hzero : paramsAt params 0 = params := (paramsAt_eq_self_iff 0).2 (.inr rfl)
  have hparams : paramsAt params full.tokens.length = params ↔
      params.limit = none ∨ full.tokens = [] := by
    rw [paramsAt_eq_self_iff, length_eq_zero_iff]
  cases hpartial : partialRollout with
  | true =>
    obtain ⟨final, after, hloop, htokens, hlogs, hafter⟩ := h.generateLoop hm (m + 1)
      (Nat.zero_le m) (by omega) (Nat.zero_le _) {} rfl rfl
    rw [hzero] at hloop
    rw [← hparams]
    simp only [true_or, true_and]
    constructor
    · rintro ⟨final', after', hgen, -, -, -, rfl⟩
      cases hloop.symm.trans hgen
      exact hafter.symm
    · intro hsame
      exact ⟨final, after, hloop, htokens, hlogs, htokens ▸ h.limit, hafter.trans hsame⟩
  | false =>
    obtain ⟨final, n, hgen, hn, htokens, hlogs, hfirst⟩ := h.generate_once m
    have hfull : final.tokenIds = full.tokens → n = full.tokens.length := by
      intro heq
      have hlen := congrArg List.length (htokens.symm.trans heq)
      rwa [length_take, Nat.min_eq_left hn] at hlen
    rw [← hfirst, ← hparams]
    simp only [Bool.false_eq_true, false_or]
    constructor
    · rintro ⟨final', after', hgen', hids, -, -, hafter⟩
      cases hgen.symm.trans hgen'
      exact ⟨hids, hfull hids ▸ hafter⟩
    · rintro ⟨hids, hsame⟩
      obtain rfl := hfull hids
      exact ⟨final, _, hgen, hids, hlogs.trans (take_of_length_le full.logProbs_le),
        hids ▸ h.limit, hsame⟩

/-- Two tokens after a prompt of one; the first call is aborted after a token. -/
def interrupted : Nat → List Nat → SamplingParams Unit → TokenOutput Nat Unit := fun i ids _ =>
  let count := if i = 0 then 1 else 2
  { tokenIds := ([7, 8].drop (ids.length - 1)).take count
    logProbs := some (([10, 20].drop (ids.length - 1)).take count)
    routedExperts := none, numPreempted := none, globalSteps := none
    stopReason := some (if i = 0 then "aborted" else "completed") }

def twoTokens : Uninterrupted Nat := ⟨[7, 8], [10, 20], Nat.le_refl 2⟩

theorem resumesUnseen_unlimited :
    ResumesUnseen interrupted true [1] 1 ⟨none, none, ()⟩ twoTokens := by
  refine (resumesUnseen_iff ⟨by simp [SamplingParams.limit, SamplingParams.limitKey],
    fun i n hn => ?_⟩ fun _ _ => rfl).2 ⟨.inl rfl, .inl rfl⟩
  have hlen : ([1] ++ twoTokens.tokens.take n).length - 1 = n := by
    simp [length_append, length_take, Nat.min_eq_left hn]
  refine ⟨if i = 0 then 1 else 2, fun hrun => ?_, ?_, ?_⟩
  · by_cases hi : i = 0
    · simp [hi, interrupted, aborted] at hrun
    · rw [if_neg hi]
      exact Nat.le_add_left 2 n
  · unfold interrupted
    dsimp only
    rw [hlen]
    rfl
  · unfold interrupted
    dsimp only
    rw [hlen]
    rfl

/-- A limit of four tokens is two afterwards. -/
theorem not_resumesUnseen_limited :
    ¬ResumesUnseen interrupted true [1] 1 ⟨some (some 4), none, ()⟩ twoTokens := by
  rintro ⟨final, after, hgen, -, -, -, rfl⟩
  have hafter := congrArg (Option.map fun r => r.2.maxTokens) hgen
  exact absurd (show some (some (some (2 : Int))) = some (some (some 4)) from hafter) (by decide)

end PartialRollout

end Verl
