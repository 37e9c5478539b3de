import Verl.Lib.PyStr
import Verl.Trainer.ValidationMetrics

/-! # The validation columns of the synchronous trainer

`_validate` appends the samples of one validation batch after the other to the columns of
`reward_extra_infos_dict`:

* `addInfo`: the reward-extra-info of a sample, `None` in the columns it has no value for and in
  the places before a new column (`get?_addInfo`);
* `batchStep`: the batch, whose scores go to the column `reward` before its infos are read.

The columns have an entry for every sample and are turned into metrics exactly when no sample has
a key `reward`, no known column is left behind by a batch without `extra_fields`, and every group
can be averaged (`validates_iff`). -/

namespace Verl.Validation

open List Dict

variable {K : Type}

/-! ## Definitions -/

/-- An entry of `extra_fields`. -/
inductive ExtraField (K : Type)
  | dict (rewardExtraInfo : Option (Dict (Value K)))
  | other

/-- `extra_field.get("reward_extra_info", {}) if isinstance(extra_field, dict) else {}`. -/
def ExtraField.info : ExtraField K → Dict (Value K)
  | .dict (some rewardExtraInfo) => rewardExtraInfo
  | .dict none | .other => Dict.empty

/-- A key with a session has the index of the output at its end: `{uid}_{session_id}_{index}`. -/
def Readable (key : String) : Prop :=
  ∀ uid session index, rsplit '_' 2 key.toList = [uid, session, index] →
    ∃ i, pyInt index = .ok i

/-- The sampled keys, and the columns that `kv_batch_get` returns for a key. -/
structure Batch (K : Type) where
  keys : List String
  readable : ∀ key ∈ keys, Readable key
  uid : String → String
  rmScores : String → List K
  extraFields : Option (String → ExtraField K)
  dataSource : Option (String → String)

/-- `session_max[session_key] = (index, pos)` for a higher index. -/
def keepMax (sessionMax : Dict (Int × Nat)) (sessionKey : String) (index : Int) (pos : Nat) :
    Dict (Int × Nat) :=
  match sessionMax.get? sessionKey with
  | some (best, _) => if best < index then sessionMax.insert sessionKey (index, pos) else sessionMax
  | none => sessionMax.insert sessionKey (index, pos)

def sessionStep (sessionMax : Dict (Int × Nat)) (key : String × Nat) :
    Except PyErr (Dict (Int × Nat)) :=
  match rsplit '_' 2 key.1.toList with
  | [uid, session, index] =>
    (pyInt index).map fun index =>
      keepMax sessionMax (String.ofList (uid ++ '_' :: session)) index key.2
  | _ => .ok (sessionMax.insert key.1 (0, key.2))

/-- `final_keys`, the sessions in the order of their positions. -/
def finalKeys (keys : List String) : Except PyErr (List String) := do
  let sessionMax ← keys.zipIdx.foldlM sessionStep Dict.empty
  let sortedSessions := pySorted (fun a b => decide (a.2.2 < b.2.2)) sessionMax.items
  sortedSessions.mapM fun session => pyGetItem keys session.2.2

/-- `reward_extra_infos_dict[key].append(None)` for the keys that the sample does not have. -/
def addMissing (info : Dict (Value K)) (infos : Dict (List (Value K))) : Dict (List (Value K)) :=
  infos.mapVals fun key vals =>
    if key ≠ "reward" ∧ key ∉ info.keys then vals ++ [Value.none] else vals

/-- The value of the sample, in a new list after `nPrior` times `None`. -/
def addValue (nPrior : Nat) (infos : Dict (List (Value K))) (item : String × Value K) :
    Dict (List (Value K)) :=
  infos.modify item.1 (List.replicate nPrior Value.none) (· ++ [item.2])

def addInfo (state : Dict (List (Value K)) × Nat) (info : Dict (Value K)) :
    Dict (List (Value K)) × Nat :=
  (info.items.foldl (addValue state.2) (addMissing info state.1), state.2 + 1)

/-- `n_prior` starts at the number of scores before the batch. -/
def addInfos (infos : Dict (List (Value K))) (extraFields : List (Dict (Value K))) :
    Dict (List (Value K)) :=
  (extraFields.foldl addInfo
    (infos, ((infos.get? "reward").getD []).length - extraFields.length)).1

/-! ## The last outputs -/

variable {col : List (Value K)} {bs batches : List (Batch K)} {infos : Dict (List (Value K))}
  {b : Batch K} {var : String}

theorem exists_sessionStep {n : Nat} {sessionMax : Dict (Int × Nat)}
    (h : ∀ item ∈ sessionMax.items, item.2.2 < n) {key : String × Nat} (hkey : Readable key.1)
    (hpos : key.2 < n) :
    ∃ sessionMax', sessionStep sessionMax key = .ok sessionMax' ∧
      ∀ item ∈ sessionMax'.items, item.2.2 < n := by
  have hinsert : ∀ (name : String) (index : Int),
      ∀ item ∈ (sessionMax.insert name (index, key.2)).items, item.2.2 < n := by
    intro name index item hitem
    rcases mem_items_insert hitem with hitem | rfl
    · exact h item hitem
    · exact hpos
  unfold sessionStep
  split
  · next uid session index hparts =>
    obtain ⟨i, hi⟩ := hkey uid session index hparts
    refine ⟨_, except_map_eq_ok.2 ⟨i, hi, rfl⟩, ?_⟩
    unfold keepMax
    split
    · grind
    · exact hinsert _ _
  · exact ⟨_, rfl, hinsert _ _⟩

theorem exists_finalKeys {keys : List String} (hkeys : ∀ key ∈ keys, Readable key) :
    ∃ final, finalKeys keys = .ok final := by
  have hloop : ∀ (todo : List (String × Nat)) (sessionMax : Dict (Int × Nat)),
      (∀ key ∈ todo, Readable key.1 ∧ key.2 < keys.length) →
      (∀ item ∈ sessionMax.items, item.2.2 < keys.length) →
      ∃ sessionMax', todo.foldlM sessionStep sessionMax = .ok sessionMax' ∧
        ∀ item ∈ sessionMax'.items, item.2.2 < keys.length := by
    intro todo
    induction todo with
    | nil => exact fun sessionMax _ h => ⟨sessionMax, rfl, h⟩
    | cons key todo ih =>
      intro sessionMax htodo h
      rw [forall_mem_cons] at htodo
      obtain ⟨sessionMax₁, hstep, h₁⟩ := exists_sessionStep h htodo.1.1 htodo.1.2
      obtain ⟨sessionMax', hrest, h'⟩ := ih sessionMax₁ htodo.2 h₁
      exact ⟨sessionMax', by rw [foldlM_cons, hstep, ok_bind, hrest], h'⟩
  have hzip : ∀ key ∈ keys.zipIdx, Readable key.1 ∧ key.2 < keys.length := by grind
  obtain ⟨sessionMax, hok, hpos⟩ := hloop keys.zipIdx Dict.empty hzip fun item hitem => by
    cases hitem
  unfold finalKeys
  rw [hok]
  refine exists_mapM_iff.2 fun session hsession => ?_
  have hlt := hpos session ((mem_pySorted _ _ _).1 hsession)
  exact ⟨keys[session.2.2], by simp [pyGetItem, hlt]⟩

/-! ## The info of one sample -/

theorem get?_addMissing (info : Dict (Value K)) (infos : Dict (List (Value K))) (var : String) :
    (addMissing info infos).get? var =
      if var ≠ "reward" ∧ var ∉ info.keys then (infos.get? var).map (· ++ [Value.none])
      else infos.get? var := by
  unfold addMissing
  rw [get?_mapVals]
  split
  · rfl
  · exact Option.map_id'

theorem get?_foldl_addValue (nPrior : Nat) {items : List (String × Value K)}
    (hnodup : (items.map Prod.fst).Nodup) (infos : Dict (List (Value K))) (var : String) :
    (items.foldl (addValue nPrior) infos).get? var =
      match items.lookup var with
      | some val => some ((infos.get? var).getD (replicate nPrior Value.none) ++ [val])
      | none => infos.get? var := by
  induction items generalizing infos with
  | nil => rfl
  | cons item items ih =>
    rw [map_cons, nodup_cons] at hnodup
    rw [foldl_cons, ih hnodup.2, lookup_cons]
    unfold addValue
    rw [get?_modify]
    by_cases hvar : var = item.1
    · have hnone : items.lookup var = none := by grind
      rw [hnone, if_pos hvar, beq_iff_eq.2 hvar, hvar]
    · grind

theorem get?_addInfo (state : Dict (List (Value K)) × Nat) (info : Dict (Value K)) (var : String) :
    (addInfo state info).1.get? var =
      match info.get? var with
      | some val => some ((state.1.get? var).getD (replicate state.2 Value.none) ++ [val])
      | none =>
        if var = "reward" then state.1.get? var else (state.1.get? var).map (· ++ [Value.none]) := by
  unfold addInfo
  rw [get?_foldl_addValue state.2 info.nodup, get?_addMissing]
  show (match info.get? var with
    | some val => _
    | none => _) = _
  cases hval : info.get? var with
  | none =>
    have hkey := get?_eq_none_iff.1 hval
    by_cases hreward : var = "reward"
    · simp [hreward]
    · simp [hkey]
  | some val =>
    have hkey : var ∈ info.keys := mem_keys_iff.2 ⟨val, hval⟩
    simp [hkey]

/-! ## Columns and samples -/

/-- The lists that the metrics are computed from. -/
structure Columns (K : Type) where
  sampleUids : List String
  dataSources : List String
  rewardExtraInfos : Dict (List (Value K))

variable [Field K]

def batchStep (columns : Columns K) (batch : Batch K) : Except PyErr (Columns K) := do
  let finalKeys ← finalKeys batch.keys
  let scores := finalKeys.map fun key => Value.num (batch.rmScores key).sum
  let infos := columns.rewardExtraInfos.modify "reward" [] (· ++ scores)
  return {
    sampleUids := columns.sampleUids ++ finalKeys.map batch.uid
    dataSources := columns.dataSources ++
      match batch.dataSource with
      | some dataSource => finalKeys.map dataSource
      | none => List.replicate finalKeys.length "unknown"
    rewardExtraInfos :=
      match batch.extraFields with
      | some extraFields => addInfos infos (finalKeys.map fun key => (extraFields key).info)
      | none => infos }

/-- The loop over `val_dataloader`. -/
def collect (batches : List (Batch K)) : Except PyErr (Columns K) :=
  batches.foldlM batchStep { sampleUids := [], dataSources := [], rewardExtraInfos := Dict.empty }

/-- A validation sample: the last output of a session. -/
structure Sample (K : Type) where
  uid : String
  dataSource : String
  score : K
  info : Dict (Value K)

/-- What the sample has for a variable. -/
def Sample.value (var : String) (sample : Sample K) : Value K :=
  if var = "reward" then .num sample.score else (sample.info.get? var).getD .none

def Batch.sample (batch : Batch K) (key : String) : Sample K where
  uid := batch.uid key
  dataSource := (batch.dataSource.map fun dataSource => dataSource key).getD "unknown"
  score := (batch.rmScores key).sum
  info := (batch.extraFields.map fun extraFields => (extraFields key).info).getD Dict.empty

def Batch.samples (batch : Batch K) : List (Sample K) :=
  ((finalKeys batch.keys).toOption.getD []).map batch.sample

def samplesOf (batches : List (Batch K)) : List (Sample K) := batches.flatMap Batch.samples

/-- Every column has one entry for every sample, that of the sample. -/
structure Filled (samples : List (Sample K)) (columns : Columns K) : Prop where
  uids : columns.sampleUids = samples.map Sample.uid
  sources : columns.dataSources = samples.map Sample.dataSource
  column : ∀ var vals, columns.rewardExtraInfos.get? var = some vals →
    vals = samples.map (Sample.value var)
  known : ∀ sample ∈ samples, ∀ var, var = "reward" ∨ var ∈ sample.info.keys →
    var ∈ columns.rewardExtraInfos.keys

/-! ## The columns of one batch -/

/-- The columns after the batch, from its samples. -/
def addBatch (columns : Columns K) (batch : Batch K) : Columns K :=
  let infos := columns.rewardExtraInfos.modify "reward" []
    (· ++ batch.samples.map fun sample => Value.num sample.score)
  { sampleUids := columns.sampleUids ++ batch.samples.map Sample.uid
    dataSources := columns.dataSources ++ batch.samples.map Sample.dataSource
    rewardExtraInfos :=
      if batch.extraFields.isSome then addInfos infos (batch.samples.map Sample.info) else infos }

theorem batchStep_eq (columns : Columns K) (batch : Batch K) :
    batchStep columns batch = .ok (addBatch columns batch) := by
  obtain ⟨final, hfinal⟩ := exists_finalKeys batch.readable
  have hsamples : batch.samples = final.map batch.sample := by
    unfold Batch.samples
    rw [hfinal]
    rfl
  unfold batchStep addBatch
  rw [hfinal, ok_bind, hsamples]
  obtain ⟨keys, readable, uid, rmScores, extraFields, dataSource⟩ := batch
  simp only [map_map]
  congr 2
  · cases dataSource with
    | none => exact congrArg (columns.dataSources ++ ·) map_const'.symm
    | some dataSource => rfl
  · cases extraFields with
    | none => rfl
    | some extraFields => rfl

theorem collect_eq (batches : List (Batch K)) : collect batches = .ok (batches.foldl addBatch
      { sampleUids := [], dataSources := [], rewardExtraInfos := Dict.empty }) :=
  foldlM_eq_ok_foldl batchStep addBatch batches (fun columns batch _ => batchStep_eq columns batch) _

theorem uids_foldl_addBatch (batches : List (Batch K)) (columns : Columns K) :
    (batches.foldl addBatch columns).sampleUids =
      columns.sampleUids ++ (samplesOf batches).map Sample.uid := by
  induction batches generalizing columns with
  | nil => simp [samplesOf]
  | cons batch batches ih =>
    rw [foldl_cons, ih]
    simp [samplesOf, addBatch]

theorem dataSources_foldl_addBatch (batches : List (Batch K)) (columns : Columns K) :
    (batches.foldl addBatch columns).dataSources =
      columns.dataSources ++ (samplesOf batches).map Sample.dataSource := by
  induction batches generalizing columns with
  | nil => simp [samplesOf]
  | cons batch batches ih =>
    rw [foldl_cons, ih]
    simp [samplesOf, addBatch]

@[simp] theorem samplesOf_append (bs bs' : List (Batch K)) :
    samplesOf (bs ++ bs') = samplesOf bs ++ samplesOf bs' :=
  flatMap_append

@[simp] theorem samplesOf_singleton (b : Batch K) : samplesOf [b] = b.samples := by
  simp [samplesOf]

/-! ## The column of the rewards -/

omit [Field K] in
theorem length_reward_foldl_addInfo (infos : List (Dict (Value K)))
    (state : Dict (List (Value K)) × Nat) (h : state.1.get? "reward" = some col) :
    ∃ col', (infos.foldl addInfo state).1.get? "reward" = some col' ∧
      col'.length = col.length + infos.countP fun info => "reward" ∈ info.keys := by
  induction infos generalizing state col with
  | nil => exact ⟨col, h, rfl⟩
  | cons info infos ih =>
    have hget := get?_addInfo state info "reward"
    rw [h] at hget
    cases hval : info.get? "reward" with
    | none =>
      rw [hval] at hget
      obtain ⟨col', hcol', hlen⟩ := ih _ hget
      refine ⟨col', hcol', ?_⟩
      rw [hlen, countP_cons_of_neg (by simpa using get?_eq_none_iff.1 hval)]
    | some val =>
      rw [hval] at hget
      obtain ⟨col', hcol', hlen⟩ := ih _ hget
      refine ⟨col', hcol', ?_⟩
      rw [hlen, countP_cons_of_pos (by simpa using mem_keys_iff.2 ⟨val, hval⟩)]
      simp
      omega

omit [Field K] in
theorem length_reward_addInfos
    (h : infos.get? "reward" = some col) (extraFields : List (Dict (Value K))) :
    ∃ col', (addInfos infos extraFields).get? "reward" = some col' ∧
      col'.length = col.length + extraFields.countP fun info => "reward" ∈ info.keys :=
  length_reward_foldl_addInfo extraFields (infos, _) h

omit [Field K] in
theorem get?_reward_foldl_addInfo {infos : List (Dict (Value K))}
    (h : ∀ info ∈ infos, "reward" ∉ info.keys) (state : Dict (List (Value K)) × Nat) :
    (infos.foldl addInfo state).1.get? "reward" = state.1.get? "reward" := by
  induction infos generalizing state with
  | nil => rfl
  | cons info infos ih =>
    rw [forall_mem_cons] at h
    rw [foldl_cons, ih h.2, get?_addInfo, get?_eq_none_iff.2 h.1]
    rfl

/-- The columns after all batches. -/
def columnsOf (batches : List (Batch K)) : Columns K :=
  batches.foldl addBatch { sampleUids := [], dataSources := [], rewardExtraInfos := Dict.empty }

theorem columnsOf_append (bs : List (Batch K)) (b : Batch K) :
    columnsOf (bs ++ [b]) = addBatch (columnsOf bs) b := by
  unfold columnsOf
  rw [foldl_append]
  rfl

def rewardColumn (columns : Columns K) : List (Value K) :=
  (columns.rewardExtraInfos.get? "reward").getD []

theorem get?_reward_addBatch (columns : Columns K) (b : Batch K) :
    ∃ col, (addBatch columns b).rewardExtraInfos.get? "reward" = some col ∧
      col.length = (rewardColumn columns).length + b.samples.length +
        b.samples.countP fun s => "reward" ∈ s.info.keys := by
  unfold addBatch
  have hcol := get?_modify columns.rewardExtraInfos "reward" "reward" []
    (· ++ b.samples.map fun s => Value.num s.score)
  cases hextra : b.extraFields with
  | none =>
    have hcount : (b.samples.countP fun s => "reward" ∈ s.info.keys) = 0 := by
      rw [countP_eq_zero]
      intro s hs
      obtain ⟨key, -, rfl⟩ := mem_map.1 hs
      simp [Batch.sample, hextra, Dict.empty, Dict.keys]
    refine ⟨_, hcol, ?_⟩
    rw [hcount]
    simp [rewardColumn]
  | some extraFields =>
    obtain ⟨col', hcol', hlen⟩ := length_reward_addInfos hcol (b.samples.map Sample.info)
    refine ⟨col', hcol', ?_⟩
    rw [hlen]
    simp [rewardColumn, Function.comp_def]

/-- A score for every sample and one more entry for every sample with a key `reward`. -/
theorem length_rewardColumn (batches : List (Batch K)) :
    (rewardColumn (columnsOf batches)).length = (samplesOf batches).length +
      (samplesOf batches).countP fun s => "reward" ∈ s.info.keys := by
  induction batches using List.reverseRecOn with
  | nil => rfl
  | append_singleton bs b ih =>
    obtain ⟨col, hcol, hlen⟩ := get?_reward_addBatch (columnsOf bs) b
    have hreward : rewardColumn (columnsOf (bs ++ [b])) = col := by
      simp [rewardColumn, columnsOf_append, hcol]
    rw [hreward, samplesOf_append, samplesOf_singleton, length_append,
      countP_append]
    omega

/-! ## The other columns -/

/-- The columns of the samples, without the column `reward`. -/
def InfoColumns (samples : List (Sample K)) (infos : Dict (List (Value K))) : Prop :=
  ∀ var, var ≠ "reward" → infos.get? var =
    if ∃ s ∈ samples, var ∈ s.info.keys then some (samples.map (Sample.value var)) else none

omit [Field K] in
theorem map_value_of_unknown {samples : List (Sample K)} (hvar : var ≠ "reward")
    (h : ¬∃ s ∈ samples, var ∈ s.info.keys) :
    samples.map (Sample.value var) = replicate samples.length Value.none := by
  rw [← map_const']
  refine map_congr_left fun s hs => ?_
  unfold Sample.value
  rw [if_neg hvar, get?_eq_none_iff.2 fun hkey => h ⟨s, hs, hkey⟩]
  rfl

omit [Field K] in
theorem InfoColumns.addInfo {samples : List (Sample K)}
    (h : InfoColumns samples infos) (s : Sample K) :
    InfoColumns (samples ++ [s]) (addInfo (infos, samples.length) s.info).1 := by
  intro var hvar
  rw [get?_addInfo, map_append]
  by_cases hold : ∃ s ∈ samples, var ∈ s.info.keys
  · have hnew : ∃ s' ∈ samples ++ [s], var ∈ s'.info.keys := by grind
    rw [h var hvar, if_pos hold, if_pos hnew]
    cases hval : s.info.get? var <;> simp [Sample.value, hvar, hval]
  · rw [h var hvar, if_neg hold]
    cases hval : s.info.get? var with
    | none =>
      have hnew : ¬∃ s' ∈ samples ++ [s], var ∈ s'.info.keys := by
        rintro ⟨s', hs', hkey⟩
        rcases mem_append.1 hs' with hs' | hs'
        · exact hold ⟨s', hs', hkey⟩
        · rw [mem_singleton.1 hs'] at hkey
          exact get?_eq_none_iff.1 hval hkey
      rw [if_neg hnew, if_neg hvar]
      rfl
    | some val =>
      have hnew : ∃ s' ∈ samples ++ [s], var ∈ s'.info.keys :=
        ⟨s, by simp, mem_keys_iff.2 ⟨val, hval⟩⟩
      rw [if_pos hnew, map_value_of_unknown hvar hold]
      simp [Sample.value, hvar, hval]

omit [Field K] in
theorem InfoColumns.foldl_addInfo (todo : List (Sample K)) {samples : List (Sample K)}
    (h : InfoColumns samples infos) :
    InfoColumns (samples ++ todo)
      ((todo.map Sample.info).foldl Validation.addInfo (infos, samples.length)).1 := by
  induction todo generalizing samples infos with
  | nil => rwa [append_nil]
  | cons s todo ih =>
    have hstep := ih (h.addInfo s)
    rw [append_assoc, length_append] at hstep
    exact hstep

/-- The columns of all samples, complete. -/
structure Complete (batches : List (Batch K)) : Prop where
  reward : rewardColumn (columnsOf batches) =
    (samplesOf batches).map fun s => Value.num s.score
  infos : InfoColumns (samplesOf batches) (columnsOf batches).rewardExtraInfos

/-- No sample brings a second score. -/
def NoRewardKey (batches : List (Batch K)) : Prop :=
  ∀ s ∈ samplesOf batches, "reward" ∉ s.info.keys

/-- A batch that has samples but no `extra_fields` comes before all infos. -/
def LeavesNoGap (batches : List (Batch K)) : Prop :=
  ∀ done batch, done ++ [batch] <+: batches → batch.extraFields = none → batch.samples ≠ [] →
    ∀ s ∈ samplesOf done, s.info.keys = []

theorem NoRewardKey.of_append {bs' : List (Batch K)} (h : NoRewardKey (bs ++ bs')) :
    NoRewardKey bs ∧ NoRewardKey bs' := by
  unfold NoRewardKey at h
  rw [samplesOf_append] at h
  exact ⟨fun s hs => h s (mem_append_left _ hs), fun s hs => h s (mem_append_right _ hs)⟩

theorem LeavesNoGap.of_append (h : LeavesNoGap (bs ++ [b])) : LeavesNoGap bs :=
  fun done batch hdone => h done batch (hdone.trans (prefix_append bs [b]))

theorem info_eq_empty (hextra : b.extraFields = none) {s : Sample K}
    (hs : s ∈ b.samples) : s.info = Dict.empty := by
  obtain ⟨key, -, rfl⟩ := mem_map.1 hs
  simp [Batch.sample, hextra]

theorem get?_modify_reward (columns : Columns K) (b : Batch K) (hvar : var ≠ "reward") :
    (columns.rewardExtraInfos.modify "reward" []
      (· ++ b.samples.map fun s => Value.num s.score)).get? var =
      columns.rewardExtraInfos.get? var := by
  rw [get?_modify, if_neg hvar]

theorem Complete.append (h : Complete bs) (hreward : NoRewardKey (bs ++ [b]))
    (hgap : b.extraFields = none → b.samples ≠ [] → ∀ s ∈ samplesOf bs, s.info.keys = []) :
    Complete (bs ++ [b]) := by
  have hnew : ∀ info ∈ b.samples.map Sample.info, "reward" ∉ info.keys := by
    intro info hinfo
    obtain ⟨s, hs, rfl⟩ := mem_map.1 hinfo
    exact hreward.of_append.2 s (by rwa [samplesOf_singleton])
  have hlen : (rewardColumn (columnsOf bs)).length = (samplesOf bs).length := by
    rw [h.reward, length_map]
  have hinfos : InfoColumns (samplesOf bs) ((columnsOf bs).rewardExtraInfos.modify "reward" []
      (· ++ b.samples.map fun s => Value.num s.score)) := fun var hvar =>
    (get?_modify_reward (columnsOf bs) b hvar).trans (h.infos var hvar)
  have hcol := get?_modify (columnsOf bs).rewardExtraInfos "reward" "reward" []
    (· ++ b.samples.map fun s => Value.num s.score)
  have hstart : ((((columnsOf bs).rewardExtraInfos.modify "reward" []
      (· ++ b.samples.map fun s => Value.num s.score)).get? "reward").getD []).length -
      (b.samples.map Sample.info).length = (samplesOf bs).length := by
    rw [hcol, ← hlen]
    simp [rewardColumn]
  constructor
  · rw [columnsOf_append, samplesOf_append, samplesOf_singleton, map_append, ← h.reward]
    unfold rewardColumn addBatch addInfos
    split
    · rw [get?_reward_foldl_addInfo hnew, hcol]
      rfl
    · rw [hcol]
      rfl
  · rw [columnsOf_append, samplesOf_append, samplesOf_singleton]
    unfold addBatch addInfos
    dsimp only
    rw [hstart]
    cases hextra : b.extraFields with
    | some extraFields => exact hinfos.foldl_addInfo b.samples
    | none =>
      intro var hvar
      rw [if_neg (by simp), hinfos var hvar]
      by_cases hsamples : b.samples = []
      · rw [hsamples, append_nil]
      · have hempty : ¬∃ s ∈ samplesOf bs ++ b.samples, var ∈ s.info.keys := by
          rintro ⟨s, hs, hkey⟩
          rcases mem_append.1 hs with hs | hs
          · grind
          · rw [info_eq_empty hextra hs] at hkey
            cases hkey
        rw [if_neg hempty, if_neg]
        rintro ⟨s, hs, hkey⟩
        exact hempty ⟨s, mem_append_left _ hs, hkey⟩

theorem complete_of_noRewardKey (hreward : NoRewardKey batches)
    (hgap : LeavesNoGap batches) : Complete batches := by
  induction batches using List.reverseRecOn with
  | nil => exact ⟨rfl, fun var _ => by simp [columnsOf, samplesOf, Dict.get?, Dict.empty]⟩
  | append_singleton bs b ih =>
    exact (ih hreward.of_append.1 hgap.of_append).append hreward
      (hgap bs b (prefix_refl _))

/-! ## Columns that are left behind -/

omit [Field K] in
theorem length_foldl_addInfo (infos : List (Dict (Value K))) (state : Dict (List (Value K)) × Nat)
    (hvar : var ≠ "reward") (h : state.1.get? var = some col) :
    ∃ col', (infos.foldl addInfo state).1.get? var = some col' ∧
      col'.length = col.length + infos.length := by
  induction infos generalizing state col with
  | nil => exact ⟨col, h, rfl⟩
  | cons info infos ih =>
    have hstep : ∃ val, (addInfo state info).1.get? var = some (col ++ [val]) := by
      rw [get?_addInfo, h]
      cases info.get? var with
      | none => exact ⟨Value.none, by rw [if_neg hvar]; rfl⟩
      | some val => exact ⟨val, rfl⟩
    obtain ⟨val, hval⟩ := hstep
    obtain ⟨col', hcol', hlen⟩ := ih _ hval
    refine ⟨col', hcol', ?_⟩
    rw [hlen, length_append, length_singleton, length_cons]
    omega

theorem length_addBatch_le {columns : Columns K} (hvar : var ≠ "reward")
    (h : columns.rewardExtraInfos.get? var = some col) (b : Batch K) :
    ∃ col', (addBatch columns b).rewardExtraInfos.get? var = some col' ∧
      col'.length ≤ col.length + b.samples.length := by
  rw [← get?_modify_reward columns b hvar] at h
  unfold addBatch
  split
  · obtain ⟨col', hcol', hlen⟩ := length_foldl_addInfo (b.samples.map Sample.info) (_, _) hvar h
    exact ⟨col', hcol', by rw [hlen, length_map]⟩
  · exact ⟨col, h, by omega⟩

theorem leavesNoGap_of_length (hreward : NoRewardKey batches)
    (hfull : ∀ var, var ≠ "reward" → ∀ col,
      (columnsOf batches).rewardExtraInfos.get? var = some col →
      (samplesOf batches).length ≤ col.length) : LeavesNoGap batches := by
  induction batches using List.reverseRecOn with
  | nil =>
    intro done batch hdone
    have := hdone.length_le
    simp at this
  | append_singleton bs b ih =>
    rw [columnsOf_append, samplesOf_append, samplesOf_singleton, length_append] at hfull
    have hbs : LeavesNoGap bs := by
      refine ih hreward.of_append.1 fun var hvar col hcol => ?_
      obtain ⟨col', hcol', hle⟩ := length_addBatch_le hvar hcol b
      have := hfull var hvar col' hcol'
      omega
    intro done batch hdone hextra hsamples s hs
    rcases prefix_concat_iff.1 hdone with heq | hdone
    · obtain ⟨rfl, hb⟩ := append_inj' heq rfl
      obtain rfl : batch = b := by simpa using hb
      rw [eq_nil_iff_forall_not_mem]
      intro var hkey
      have hvar : var ≠ "reward" := by
        rintro rfl
        exact hreward.of_append.1 s hs hkey
      have hcol := (complete_of_noRewardKey hreward.of_append.1 hbs).infos var hvar
      rw [if_pos ⟨s, hs, hkey⟩] at hcol
      have hadd : (addBatch (columnsOf done) batch).rewardExtraInfos.get? var =
          (columnsOf done).rewardExtraInfos.get? var := by
        rw [← get?_modify_reward (columnsOf done) batch hvar]
        simp [addBatch, hextra]
      have hlen := hfull var hvar _ (hadd.trans hcol)
      rw [length_map] at hlen
      have hpos := length_pos_iff.2 hsamples
      omega
    · exact hbs done batch hdone hextra hsamples s hs

/-! ## The whole validation -/

/-- Every group of a variable that some sample has, is skipped or has numbers only. -/
def GroupsAverage (samples : List (Sample K)) : Prop :=
  ∀ var, (∃ s ∈ samples, var ∈ s.info.keys) → ∀ s ∈ samples, Averages
    ((samples.filter fun s' => s'.dataSource = s.dataSource ∧ s'.uid = s.uid).map
      (Sample.value var))

theorem filled_of_complete (h : Complete batches) :
    Filled (samplesOf batches) (columnsOf batches) := by
  constructor
  · exact uids_foldl_addBatch batches _
  · exact dataSources_foldl_addBatch batches _
  · intro var vals hvals
    by_cases hvar : var = "reward"
    · subst hvar
      have hcol := h.reward
      unfold rewardColumn at hcol
      rw [hvals] at hcol
      exact hcol
    · rw [h.infos var hvar] at hvals
      split at hvals
      · exact (Option.some.inj hvals).symm
      · cases hvals
  · intro s hs var hkey
    rw [mem_keys_iff]
    by_cases hvar : var = "reward"
    · subst hvar
      cases hcol : (columnsOf batches).rewardExtraInfos.get? "reward" with
      | some vals => exact ⟨vals, rfl⟩
      | none =>
        have hreward := h.reward
        unfold rewardColumn at hreward
        rw [hcol] at hreward
        rw [map_eq_nil_iff.1 hreward.symm] at hs
        cases hs
    · exact ⟨_, (h.infos var hvar).trans (if_pos ⟨s, hs, hkey.resolve_left hvar⟩)⟩

theorem conditions_of_filled (h : Filled (samplesOf batches) (columnsOf batches)) :
    NoRewardKey batches ∧ LeavesNoGap batches := by
  have hreward : NoRewardKey batches := by
    have hlen := length_rewardColumn batches
    have hle : (rewardColumn (columnsOf batches)).length ≤ (samplesOf batches).length := by
      unfold rewardColumn
      cases hcol : (columnsOf batches).rewardExtraInfos.get? "reward" with
      | none => exact Nat.zero_le _
      | some vals =>
        rw [h.column "reward" vals hcol]
        simp
    have hcount : ((samplesOf batches).countP fun s => "reward" ∈ s.info.keys) = 0 := by omega
    intro s hs hkey
    exact countP_eq_zero.1 hcount s hs (decide_eq_true hkey)
  refine ⟨hreward, leavesNoGap_of_length hreward fun var _ col hcol => ?_⟩
  rw [h.column var col hcol, length_map]

variable [LinearOrder K]

/-- The columns are filled, the call groups the entries of every sample under its data source and
uid, and it returns. -/
def Validates (np : NumPy K) (batches : List (Batch K)) : Prop :=
  ∃ columns, collect batches = .ok columns ∧ Filled (samplesOf batches) columns ∧
    (∃ groups, groupByUid columns.dataSources columns.sampleUids columns.rewardExtraInfos =
        .ok groups ∧
      Grouped Sample.dataSource Sample.uid Sample.value columns.rewardExtraInfos.keys
        (samplesOf batches) groups) ∧
    ∃ metrics, processValidationMetrics np columns.dataSources columns.sampleUids
      columns.rewardExtraInfos 42 = .ok metrics

/-- Metrics exist for filled columns exactly when the groups of every info can be averaged. -/
theorem exists_metrics_iff (np : NumPy K) (h : Complete batches) :
    (∃ metrics, processValidationMetrics np (columnsOf batches).dataSources
        (columnsOf batches).sampleUids (columnsOf batches).rewardExtraInfos 42 = .ok metrics) ↔
      GroupsAverage (samplesOf batches) := by
  have hfilled := filled_of_complete h
  have hcols : ∀ var ∈ (columnsOf batches).rewardExtraInfos.items,
      var.2 = (samplesOf batches).map (Sample.value var.1) := fun var hvar =>
    hfilled.column var.1 var.2 (mem_items_iff.1 hvar)
  rw [hfilled.sources, hfilled.uids, exists_processValidationMetrics_iff np 42 hcols]
  constructor
  · rintro hall var ⟨s', hs', hkey⟩ s hs
    exact hall var (hfilled.known s' hs' var (Or.inr hkey)) s hs
  · intro hall var hvar s hs
    by_cases hreward : var = "reward"
    · right
      intro val hval
      obtain ⟨s', -, rfl⟩ := mem_map.1 hval
      unfold Sample.value
      rw [if_pos hreward]
      rfl
    · obtain ⟨vals, hvals⟩ := mem_keys_iff.1 hvar
      rw [h.infos var hreward] at hvals
      split at hvals
      · next hknown => exact hall var hknown s hs
      · cases hvals

theorem conditions_of_validates {np : NumPy K} (h : Validates np batches) :
    NoRewardKey batches ∧ LeavesNoGap batches ∧ GroupsAverage (samplesOf batches) := by
  obtain ⟨columns, hok, hfilled, -, hmetrics⟩ := h
  obtain rfl : columnsOf batches = columns := Except.ok.inj ((collect_eq batches).symm.trans hok)
  obtain ⟨hreward, hgap⟩ := conditions_of_filled hfilled
  exact ⟨hreward, hgap, (exists_metrics_iff np (complete_of_noRewardKey hreward hgap)).1 hmetrics⟩

theorem validates_iff (np : NumPy K) (batches : List (Batch K)) : Validates np batches ↔
      NoRewardKey batches ∧ LeavesNoGap batches ∧ GroupsAverage (samplesOf batches) := by
  constructor
  · exact conditions_of_validates
  · rintro ⟨hreward, hgap, haverage⟩
    have hcollect : collect batches = .ok (columnsOf batches) := collect_eq batches
    have hcomplete := complete_of_noRewardKey hreward hgap
    have hfilled := filled_of_complete hcomplete
    refine ⟨columnsOf batches, hcollect, hfilled, ?_, (exists_metrics_iff np hcomplete).2 haverage⟩
    rw [hfilled.sources, hfilled.uids]
    exact exists_groupByUid fun var hvar =>
      hfilled.column var.1 var.2 (Dict.mem_items_iff.1 hvar)

/-! ## A reward that times out once -/

theorem readable_row (uid : List Char) (session index : Nat) :
    Readable (String.ofList (uid ++ '_' :: Nat.toDigits 10 session ++
      '_' :: Nat.toDigits 10 index)) := by
  have hdigits : ∀ n, '_' ∉ Nat.toDigits 10 n := by simp
  intro uid' session' index' h
  rw [String.toList_ofList, rsplit_append 1 _ (hdigits index),
    rsplit_append 0 uid (hdigits session)] at h
  obtain ⟨-, -, rfl⟩ := h
  exact ⟨index, pyInt_toDigits index⟩

/-- Every resample is the first entry. -/
def firstChoice : NumPy ℚ where
  sqrt := id
  randomChoice _ _ nBootstrap subsetSize := List.replicate nBootstrap (List.replicate subsetSize 0)
  length_of_mem h := by rw [eq_of_mem_replicate h, length_replicate]
  lt_of_mem hpos h hi := by
    rw [eq_of_mem_replicate h] at hi
    rwa [eq_of_mem_replicate hi]

/-- Two responses to one prompt; the reward of the second one came in time. -/
def timedOut : Batch ℚ where
  keys := ["p_0_0", "p_1_0"]
  readable key hkey := by
    rcases mem_cons.1 hkey with rfl | hkey
    · exact readable_row ['p'] 0 0
    · rw [mem_singleton.1 hkey]
      exact readable_row ['p'] 1 0
  uid _ := "p"
  rmScores key := if key = "p_0_0" then [0] else [1]
  extraFields := some fun key =>
    .dict (some (if key = "p_0_0" then Dict.ofItems [("timeout", .num 1), ("acc", .num 0)]
      else Dict.ofItems [("acc", .num 1)]))
  dataSource := none

theorem not_validates_timedOut : ¬Validates firstChoice [timedOut] := by
  intro h
  obtain ⟨-, -, haverage⟩ := conditions_of_validates h
  have hsamples : samplesOf [timedOut] = [timedOut.sample "p_0_0", timedOut.sample "p_1_0"] := by
    rfl
  rw [hsamples] at haverage
  have htimeout := haverage "timeout" ⟨timedOut.sample "p_0_0", by simp, by decide⟩
    (timedOut.sample "p_0_0") (by simp)
  rcases htimeout with hskip | hnum
  · cases hskip
  · have := hnum .none (by decide)
    cases this

end Verl.Validation
