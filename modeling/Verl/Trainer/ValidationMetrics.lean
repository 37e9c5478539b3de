import Verl.Lib.Dict
import Verl.Lib.Grouping

/-! # Metrics of the validation samples

`process_validation_metrics` gets a list for every variable, with an entry for every sample.

* `groupByUid`: the entries by data source, uid and variable (`exists_groupByUid`);
* `uidMetrics`: the metrics of one uid, among them those of `bootstrap_metric`;

The call returns exactly when every group can be averaged
(`exists_processValidationMetrics_iff`). -/

namespace Verl.Validation

open List Dict Option

/-- An entry of a column; `none` is Python's `None`. -/
inductive Value (K : Type)
  | num (x : K)
  | str (s : String)
  | none
  deriving DecidableEq, Repr

namespace Value

variable {K : Type}

def isNum : Value K → Bool
  | .num _ => true
  | _ => false

/-- `isinstance(val, str)`. -/
def isStr : Value K → Bool
  | .str _ => true
  | _ => false

end Value

/-- The parts of NumPy that are not arithmetic. -/
structure NumPy (K : Type) where
  sqrt : K → K
  /-- `np.random.seed(seed)`, then `np.random.choice(n_data, size=(n_bootstrap, subset_size))`. -/
  randomChoice : (seed nData nBootstrap subsetSize : Nat) → List (List Nat)
  length_of_mem : ∀ {seed nData nBootstrap subsetSize : Nat} {idxs : List Nat},
    idxs ∈ randomChoice seed nData nBootstrap subsetSize → idxs.length = subsetSize
  lt_of_mem : ∀ {seed nData nBootstrap subsetSize : Nat} {idxs : List Nat} {i : Nat},
    0 < nData → idxs ∈ randomChoice seed nData nBootstrap subsetSize → i ∈ idxs → i < nData

variable {K : Type} [Field K] [LinearOrder K]

/-! ## Definitions for one group -/

def npMean (xs : List K) : K := xs.sum / xs.length

def npStd (np : NumPy K) (xs : List K) : K :=
  np.sqrt (npMean (xs.map fun x => (x - npMean xs) ^ 2))

def npMax : List K → Except PyErr K
  | [] => .error (.valueError "zero-size array to reduction operation maximum which has no identity")
  | x :: xs => .ok (xs.foldl max x)

def npMin : List K → Except PyErr K
  | [] => .error (.valueError "zero-size array to reduction operation minimum which has no identity")
  | x :: xs => .ok (xs.foldl min x)

/-- An operand of `np.mean`. -/
def Value.toNum : Value K → Except PyErr K
  | .num x => .ok x
  | _ => .error (.typeError "np.mean")

/-- `bootstrap_metric`; the row of a function in `metric_results` has a value for each sample. -/
def bootstrapMetric {A : Type} (np : NumPy K) (data : List A) (subsetSize : Nat)
    (reduceFns : List (List A → Except PyErr K)) (nBootstrap seed : Nat) :
    Except PyErr (List (K × K)) := do
  let bootstrapIdxs := np.randomChoice seed data.length nBootstrap subsetSize
  let metricResults ← reduceFns.mapM fun reduceFn => bootstrapIdxs.mapM fun idxs => do
    let sample ← idxs.mapM (pyGetItem data)
    reduceFn sample
  return metricResults.map fun results => (npMean results, npStd np results)

/-- The dictionary `{"val": val, "pred": pred}`. -/
structure VoteData (K : Type) where
  val : K
  pred : Value K
  deriving DecidableEq, Repr

/-- `calc_maj_val` with `vote_key="pred"` and `val_key="val"`; the first of several majorities. -/
def calcMajVal (data : List (VoteData K)) : Except PyErr K :=
  let vote2vals := data.foldl (fun vote2vals d => appendAt vote2vals d.pred d.val) []
  match (vote2vals.map Prod.fst).argmax fun vote => (listAt vote2vals vote).length with
  | none => .error (.valueError "max() arg is an empty sequence")
  | some majVote => pyGetItem (listAt vote2vals majVote) 0

/-- The loop of `gen_ns`; `n` is positive from the start. -/
def genNsLoop (nResps n : Nat) : List Nat :=
  if 0 < n ∧ n < nResps then n :: genNsLoop nResps (n * 2) else [nResps]
termination_by nResps - n

def genNs (nResps : Nat) : List Nat := if nResps ≤ 1 then [] else genNsLoop nResps 2

/-- `zip(var_vals, pred_vals, strict=True)`. -/
def zipVotes (nums : List K) (predVals : List (Value K)) : Except PyErr (List (VoteData K)) :=
  if nums.length = predVals.length then .ok (nums.zipWith VoteData.mk predVals)
  else .error (.valueError "zip() argument 2 is not as long as argument 1")

def addBestWorst (np : NumPy K) (seed : Nat) (nums : List K) (metric : Dict K) (n : Nat) :
    Except PyErr (Dict K) := do
  match ← bootstrapMetric np nums n [npMax, npMin] 1000 seed with
  | [bon, won] =>
    return (((metric.insert s!"best@{n}/mean" bon.1).insert s!"best@{n}/std" bon.2).insert
      s!"worst@{n}/mean" won.1).insert s!"worst@{n}/std" won.2
  | _ => throw (.valueError "not enough values to unpack (expected 2)")

def addMaj (np : NumPy K) (seed : Nat) (predVals : Option (List (Value K))) (nums : List K)
    (metric : Dict K) (n : Nat) : Except PyErr (Dict K) :=
  match predVals with
  | none => .ok metric
  | some predVals => do
    let voteData ← zipVotes nums predVals
    match ← bootstrapMetric np voteData n [calcMajVal] 1000 seed with
    | [maj] => return (metric.insert s!"maj@{n}/mean" maj.1).insert s!"maj@{n}/std" maj.2
    | _ => throw (.valueError "not enough values to unpack (expected 1)")

/-- The metrics of the responses to one prompt.  `np.mean` is the first to read the entries, and
it raises unless all of them are numbers. -/
def varMetric (np : NumPy K) (seed : Nat) (predVals : Option (List (Value K)))
    (varVals : List (Value K)) : Except PyErr (Dict K) := do
  let nResps := varVals.length
  let nums ← varVals.mapM Value.toNum
  let metric := Dict.empty.insert s!"mean@{nResps}" (npMean nums)
  if 1 < nResps then
    (genNs nResps).foldlM (fun metric n => do
      let metric ← addBestWorst np seed nums metric n
      addMaj np seed predVals nums metric n) (metric.insert s!"std@{nResps}" (npStd np nums))
  else return metric

/-- `not var_vals or isinstance(var_vals[0], str)`. -/
def skipped : List (Value K) → Bool
  | [] => true
  | val :: _ => val.isStr

def varStep (np : NumPy K) (seed : Nat) (predVals : Option (List (Value K)))
    (varDict : Dict (Dict K)) (var : String × List (Value K)) : Except PyErr (Dict (Dict K)) :=
  if skipped var.2 then .ok varDict
  else (varMetric np seed predVals var.2).map fun metric => varDict.insert var.1 metric

def uidMetrics (np : NumPy K) (seed : Nat) (var2vals : Dict (List (Value K))) :
    Except PyErr (Dict (Dict K)) :=
  var2vals.items.foldlM (varStep np seed (var2vals.get? "pred")) Dict.empty

/-! ## The metrics of one group -/

omit [LinearOrder K] in
theorem exists_bootstrapMetric {A : Type} (np : NumPy K) {data : List A} (hdata : data ≠ [])
    {subsetSize : Nat} (hsize : 0 < subsetSize) (reduceFns : List (List A → Except PyErr K))
    (hreduce : ∀ reduceFn ∈ reduceFns, ∀ sample, sample ≠ [] → ∃ x, reduceFn sample = .ok x)
    (nBootstrap seed : Nat) :
    ∃ stats, bootstrapMetric np data subsetSize reduceFns nBootstrap seed = .ok stats ∧
      stats.length = reduceFns.length := by
  have hsamples : ∀ idxs ∈ np.randomChoice seed data.length nBootstrap subsetSize,
      ∃ sample, idxs.mapM (pyGetItem data) = .ok sample ∧ sample ≠ [] := by
    intro idxs hidxs
    have hitems : ∀ i ∈ idxs, ∃ a, pyGetItem data i = .ok a := by
      intro i hi
      have hlt := np.lt_of_mem (length_pos_iff.2 hdata) hidxs hi
      exact ⟨data[i], by simp [pyGetItem, hlt]⟩
    obtain ⟨sample, hsample⟩ := exists_mapM_iff.2 hitems
    refine ⟨sample, hsample, ?_⟩
    rw [← length_pos_iff, ← (forall₂_of_mapM_eq_ok hsample).length_eq, np.length_of_mem hidxs]
    exact hsize
  have hcalls : ∀ reduceFn ∈ reduceFns, ∃ results,
      ((np.randomChoice seed data.length nBootstrap subsetSize).mapM fun idxs => do
        let sample ← idxs.mapM (pyGetItem data)
        reduceFn sample) = .ok results := by
    intro reduceFn hfn
    refine exists_mapM_iff.2 fun idxs hidxs => ?_
    obtain ⟨sample, hsample, hne⟩ := hsamples idxs hidxs
    obtain ⟨x, hx⟩ := hreduce reduceFn hfn sample hne
    exact ⟨x, by rw [hsample, ok_bind, hx]⟩
  obtain ⟨results, hresults⟩ := exists_mapM_iff.2 hcalls
  refine ⟨results.map fun results => (npMean results, npStd np results), ?_, ?_⟩
  · unfold bootstrapMetric
    dsimp only
    rw [hresults]
    rfl
  · rw [length_map, (forall₂_of_mapM_eq_ok hresults).length_eq]

omit [Field K] in
theorem exists_npMax {xs : List K} (h : xs ≠ []) : ∃ x, npMax xs = .ok x := by
  cases xs with
  | nil => exact absurd rfl h
  | cons x xs => exact ⟨_, rfl⟩

omit [Field K] in
theorem exists_npMin {xs : List K} (h : xs ≠ []) : ∃ x, npMin xs = .ok x := by
  cases xs with
  | nil => exact absurd rfl h
  | cons x xs => exact ⟨_, rfl⟩

omit [Field K] in
theorem exists_calcMajVal {data : List (VoteData K)} (h : data ≠ []) :
    ∃ x, calcMajVal data = .ok x := by
  unfold calcMajVal
  set vote2vals := data.foldl (fun vote2vals d => appendAt vote2vals d.pred d.val) []
    with hvotes
  have hkeys := mem_keys_foldl_appendAt VoteData.pred VoteData.val data []
  have hlist := listAt_foldl_appendAt VoteData.pred VoteData.val data []
  dsimp only
  split
  · next hnone =>
    -- the vote of the first entry is a key
    obtain ⟨d, rest, rfl⟩ := exists_cons_of_ne_nil h
    have hd := (hkeys d.pred).2 (Or.inr ⟨d, mem_cons_self, rfl⟩)
    rw [argmax_eq_none.1 hnone] at hd
    cases hd
  · next majVote hmaj =>
    obtain hnil | ⟨d, hd, hvote⟩ := (hkeys majVote).1 (argmax_mem hmaj)
    · cases hnil
    · have hval : d.val ∈ listAt vote2vals majVote := by grind
      have hpos := length_pos_of_mem hval
      exact ⟨(listAt vote2vals majVote)[0], by simp [pyGetItem, hpos]⟩

theorem pos_of_mem_genNsLoop {nResps n m : Nat} (hresps : 0 < nResps) (h : m ∈ genNsLoop nResps n) :
    0 < m := by
  induction n using genNsLoop.induct nResps with
  | case1 n hn ih =>
    rw [genNsLoop, if_pos hn] at h
    rcases mem_cons.1 h with rfl | h
    · exact hn.1
    · exact ih h
  | case2 n hn =>
    rw [genNsLoop, if_neg hn, mem_singleton] at h
    omega

theorem pos_of_mem_genNs {nResps n : Nat} (h : n ∈ genNs nResps) : 0 < n := by
  unfold genNs at h
  split at h
  · cases h
  · exact pos_of_mem_genNsLoop (by omega) h

variable (np : NumPy K) (seed : Nat) {predVals : Option (List (Value K))}

theorem exists_addBestWorst {nums : List K} (hnums : nums ≠ [])
    (metric : Dict K) {n : Nat} (hn : 0 < n) :
    ∃ metric', addBestWorst np seed nums metric n = .ok metric' := by
  have hreduce : ∀ reduceFn ∈ [npMax, npMin (K := K)], ∀ sample, sample ≠ [] →
      ∃ x, reduceFn sample = .ok x := by
    intro reduceFn hfn sample hsample
    rcases mem_cons.1 hfn with rfl | hfn
    · exact exists_npMax hsample
    · rw [mem_singleton.1 hfn]
      exact exists_npMin hsample
  obtain ⟨stats, hstats, hlen⟩ :=
    exists_bootstrapMetric np hnums hn [npMax, npMin] hreduce 1000 seed
  obtain ⟨bon, won, rfl⟩ := length_eq_two.1 hlen
  unfold addBestWorst
  rw [hstats]
  exact ⟨_, rfl⟩

theorem exists_addMaj {nums : List K} (hnums : nums ≠ [])
    (hpred : ∀ vals, predVals = some vals → vals.length = nums.length) (metric : Dict K) {n : Nat}
    (hn : 0 < n) : ∃ metric', addMaj np seed predVals nums metric n = .ok metric' := by
  cases predVals with
  | none => exact ⟨metric, rfl⟩
  | some vals =>
    have hlen := hpred vals rfl
    have hvotes : nums.zipWith VoteData.mk vals ≠ [] := by
      rw [← length_pos_iff, length_zipWith, hlen, min_self]
      exact length_pos_iff.2 hnums
    have hreduce : ∀ reduceFn ∈ [calcMajVal (K := K)], ∀ sample, sample ≠ [] →
        ∃ x, reduceFn sample = .ok x := by
      intro reduceFn hfn sample hsample
      rw [mem_singleton.1 hfn]
      exact exists_calcMajVal hsample
    obtain ⟨stats, hstats, hone⟩ :=
      exists_bootstrapMetric np hvotes hn [calcMajVal] hreduce 1000 seed
    obtain ⟨maj, rfl⟩ := length_eq_one_iff.1 hone
    have hzip : zipVotes nums vals = .ok (nums.zipWith VoteData.mk vals) := if_pos hlen.symm
    dsimp only [addMaj]
    rw [hzip, ok_bind, hstats]
    exact ⟨_, rfl⟩

omit [Field K] [LinearOrder K] in
theorem exists_mapM_toNum_iff {vals : List (Value K)} :
    (∃ nums, vals.mapM Value.toNum = .ok nums) ↔ ∀ val ∈ vals, val.isNum = true := by
  rw [exists_mapM_iff]
  refine forall₂_congr fun val _ => ?_
  cases val with
  | num x => exact ⟨fun _ => rfl, fun _ => ⟨x, rfl⟩⟩
  | str s =>
    constructor
    · rintro ⟨x, hx⟩
      cases hx
    · intro h
      cases h
  | none =>
    constructor
    · rintro ⟨x, hx⟩
      cases hx
    · intro h
      cases h

/-- A list of numbers has metrics, any other raises in `np.mean`. -/
theorem exists_varMetric_iff {vals : List (Value K)} (hvals : vals ≠ [])
    (hpred : ∀ preds, predVals = some preds → preds.length = vals.length) :
    (∃ metric, varMetric np seed predVals vals = .ok metric) ↔ ∀ val ∈ vals, val.isNum = true := by
  rw [← exists_mapM_toNum_iff]
  unfold varMetric
  constructor
  · rintro ⟨metric, hmetric⟩
    obtain ⟨nums, hnums, -⟩ := bind_eq_ok.1 hmetric
    exact ⟨nums, hnums⟩
  · rintro ⟨nums, hnums⟩
    have hlen : vals.length = nums.length := (forall₂_of_mapM_eq_ok hnums).length_eq
    have hne : nums ≠ [] := by grind
    rw [hnums, ok_bind]
    split
    · refine (exists_foldlM_iff (P := fun _ => True) (fun metric n hn => ?_) _).2 fun _ _ => trivial
      obtain ⟨metric₁, h₁⟩ := exists_addBestWorst np seed hne metric (pos_of_mem_genNs hn)
      obtain ⟨metric₂, h₂⟩ := exists_addMaj np seed hne
        (fun preds h => (hpred preds h).trans hlen) metric₁ (pos_of_mem_genNs hn)
      exact iff_of_true ⟨metric₂, by rw [h₁, ok_bind, h₂]⟩ trivial
    · exact ⟨_, rfl⟩

/-- A group that is skipped, or one of numbers. -/
def Averages (vals : List (Value K)) : Prop :=
  skipped vals = true ∨ ∀ val ∈ vals, val.isNum = true

theorem exists_uidMetrics_iff {var2vals : Dict (List (Value K))}
    {n : Nat} (hlen : ∀ var ∈ var2vals.items, var.2.length = n) :
    (∃ varDict, uidMetrics np seed var2vals = .ok varDict) ↔
      ∀ var ∈ var2vals.items, Averages var.2 := by
  refine exists_foldlM_iff (fun varDict var hvar => ?_) Dict.empty
  unfold varStep Averages
  by_cases hskip : skipped var.2 = true
  · rw [if_pos hskip]
    exact iff_of_true ⟨varDict, rfl⟩ (Or.inl hskip)
  · have hne : var.2 ≠ [] := by
      rintro hnil
      rw [hnil] at hskip
      exact hskip rfl
    have hpred : ∀ preds, var2vals.get? "pred" = some preds → preds.length = var.2.length :=
      fun preds h => (hlen _ (mem_items_iff.2 h)).trans (hlen var hvar).symm
    rw [if_neg hskip, or_iff_right hskip, ← exists_varMetric_iff np seed hne hpred]
    constructor
    · rintro ⟨varDict', h⟩
      obtain ⟨metric, hmetric, -⟩ := except_map_eq_ok.1 h
      exact ⟨metric, hmetric⟩
    · rintro ⟨metric, hmetric⟩
      exact ⟨_, except_map_eq_ok.2 ⟨metric, hmetric, rfl⟩⟩

/-! ## The whole call -/

/-- `data_src2uid2var2vals`. -/
abbrev Groups (K : Type) := Dict (Dict (Dict (List (Value K))))

/-- `for var_name, var_vals in infos_dict.items(): var2vals[var_name].append(...)`. -/
def appendInfos (infosDict : Dict (List (Value K))) (sampleIdx : Nat)
    (var2vals : Dict (List (Value K))) : Except PyErr (Dict (List (Value K))) :=
  infosDict.items.foldlM (fun var2vals var => do
    let val ← pyGetItem var.2 sampleIdx
    return var2vals.modify var.1 [] (· ++ [val])) var2vals

def groupStep (sampleUids : List String) (infosDict : Dict (List (Value K))) (groups : Groups K)
    (sample : String × Nat) : Except PyErr (Groups K) := do
  let uid ← pyGetItem sampleUids sample.2
  let uid2var2vals := (groups.get? sample.1).getD Dict.empty
  let var2vals ← appendInfos infosDict sample.2 ((uid2var2vals.get? uid).getD Dict.empty)
  return groups.insert sample.1 (uid2var2vals.insert uid var2vals)

def groupByUid (dataSources sampleUids : List String) (infosDict : Dict (List (Value K))) :
    Except PyErr (Groups K) :=
  dataSources.zipIdx.foldlM (groupStep sampleUids infosDict) Dict.empty

/-- `data_src2var2metric2uid_vals`, then `np.mean` of every list. -/
def aggregate (metrics : Dict (Dict (Dict (Dict K)))) : Dict (Dict (Dict K)) :=
  let uidVals := metrics.items.foldl (fun (uidVals : Dict (Dict (Dict (List K)))) dataSource =>
    dataSource.2.items.foldl (fun uidVals uid =>
      uid.2.items.foldl (fun uidVals var =>
        var.2.items.foldl (fun uidVals metric =>
          uidVals.modify dataSource.1 Dict.empty fun var2metric =>
            var2metric.modify var.1 Dict.empty fun metric2vals =>
              metric2vals.modify metric.1 [] (· ++ [metric.2])) uidVals) uidVals) uidVals)
    Dict.empty
  uidVals.mapVals fun _ var2metric => var2metric.mapVals fun _ metric2vals =>
    metric2vals.mapVals fun _ vals => npMean vals

def processValidationMetrics (np : NumPy K) (dataSources sampleUids : List String)
    (infosDict : Dict (List (Value K))) (seed : Nat) : Except PyErr (Dict (Dict (Dict K))) := do
  let groups ← groupByUid dataSources sampleUids infosDict
  let metrics ← groups.mapValsM fun uid2var2vals => uid2var2vals.mapValsM (uidMetrics np seed)
  return aggregate metrics

/-! ## The groups -/

/-- `data_src2uid2var2vals[data_source][uid][var_name]`. -/
def valsAt (groups : Groups K) (dataSource uid var : String) : Option (List (Value K)) :=
  ((groups.get? dataSource).bind (·.get? uid)).bind (·.get? var)

section Groups

omit [Field K] [LinearOrder K]

variable {S : Type} {samples : List S} {infosDict : Dict (List (Value K))}

theorem appendInfos_spec {value : String → S → Value K}
    (hcols : ∀ var ∈ infosDict.items, var.2 = samples.map (value var.1)) {i : Nat} {s : S}
    (hs : samples[i]? = some s) (var2vals : Dict (List (Value K))) :
    ∃ var2vals', appendInfos infosDict i var2vals = .ok var2vals' ∧
      ∀ var, var2vals'.get? var =
        if var ∈ infosDict.keys then some ((var2vals.get? var).getD [] ++ [value var s])
        else var2vals.get? var := by
  obtain ⟨items, hnodup⟩ := infosDict
  unfold appendInfos Dict.keys
  induction items generalizing var2vals with
  | nil => exact ⟨var2vals, rfl, fun var => by simp⟩
  | cons p items ih =>
    rw [map_cons, nodup_cons] at hnodup
    have hval : pyGetItem p.2 i = .ok (value p.1 s) := by
      rw [hcols p mem_cons_self]
      simp [pyGetItem, hs]
    obtain ⟨var2vals', hok, hget⟩ := ih (var2vals.modify p.1 [] (· ++ [value p.1 s]))
      hnodup.2 fun var hvar => hcols var (mem_cons_of_mem _ hvar)
    refine ⟨var2vals', ?_, fun var => ?_⟩
    · rw [foldlM_cons, hval]
      exact hok
    · rw [hget, get?_modify]
      by_cases hvar : var = p.1
      · grind
      · grind

theorem valsAt_insert (groups : Groups K) (dataSource uid : String)
    (var2vals : Dict (List (Value K))) (ds u var : String) :
    valsAt (groups.insert dataSource
      (((groups.get? dataSource).getD Dict.empty).insert uid var2vals)) ds u var =
      if ds = dataSource ∧ u = uid then var2vals.get? var else valsAt groups ds u var := by
  unfold valsAt
  rw [get?_insert]
  by_cases hds : ds = dataSource
  · subst hds
    rw [if_pos rfl, bind_some, get?_insert]
    by_cases hu : u = uid
    · grind
    · rw [if_neg hu, if_neg fun h => hu h.2]
      cases groups.get? ds with
      | none => rfl
      | some uid2var2vals => rfl
  · rw [if_neg hds, if_neg fun h => hds h.1]

/-- The lists of the samples `done`. -/
def Grouped {S : Type} (dataSource uid : S → String) (value : String → S → Value K)
    (keys : List String) (done : List S) (groups : Groups K) : Prop :=
  ∀ ds u var, valsAt groups ds u var =
    if var ∈ keys ∧ ∃ s ∈ done, dataSource s = ds ∧ uid s = u then
      some ((done.filter fun s => dataSource s = ds ∧ uid s = u).map (value var))
    else none

section

variable {dataSource uid : S → String} {value : String → S → Value K}

theorem Grouped.getD_valsAt {keys : List String} {done : List S} {groups : Groups K}
    (h : Grouped dataSource uid value keys done groups) {var : String} (hvar : var ∈ keys)
    (ds u : String) :
    (valsAt groups ds u var).getD [] =
      (done.filter fun s => dataSource s = ds ∧ uid s = u).map (value var) := by
  rw [h]
  by_cases hdone : ∃ s ∈ done, dataSource s = ds ∧ uid s = u
  · grind
  · have hnil : done.filter (fun s => dataSource s = ds ∧ uid s = u) = [] := by
      rw [filter_eq_nil_iff]
      intro s hs heq
      exact hdone ⟨s, hs, of_decide_eq_true heq⟩
    rw [if_neg fun h => hdone h.2, hnil]
    rfl

theorem groupStep_spec (hcols : ∀ var ∈ infosDict.items, var.2 = samples.map (value var.1)) {done : List S} {s : S}
    (hs : samples[done.length]? = some s) {groups : Groups K}
    (h : Grouped dataSource uid value infosDict.keys done groups) :
    ∃ groups', groupStep (samples.map uid) infosDict groups (dataSource s, done.length) =
        .ok groups' ∧ Grouped dataSource uid value infosDict.keys (done ++ [s]) groups' := by
  obtain ⟨var2vals, hok, hget⟩ := appendInfos_spec hcols hs
    ((((groups.get? (dataSource s)).getD Dict.empty).get? (uid s)).getD Dict.empty)
  have hold : ∀ var, ((((groups.get? (dataSource s)).getD Dict.empty).get? (uid s)).getD
      Dict.empty).get? var = valsAt groups (dataSource s) (uid s) var := by
    intro var
    unfold valsAt
    cases groups.get? (dataSource s) with
    | none => rfl
    | some uid2var2vals =>
      show ((uid2var2vals.get? (uid s)).getD Dict.empty).get? var =
        (uid2var2vals.get? (uid s)).bind (·.get? var)
      cases uid2var2vals.get? (uid s) with
      | none => rfl
      | some var2vals => rfl
  have huid : pyGetItem (samples.map uid) done.length = .ok (uid s) := by
    simp [pyGetItem, hs]
  refine ⟨groups.insert (dataSource s)
    (((groups.get? (dataSource s)).getD Dict.empty).insert (uid s) var2vals), ?_, ?_⟩
  · unfold groupStep
    dsimp only
    rw [huid, ok_bind, hok]
    rfl
  · intro ds u var
    rw [valsAt_insert]
    by_cases hsame : ds = dataSource s ∧ u = uid s
    · obtain ⟨rfl, rfl⟩ := hsame
      have hmem : ∃ s' ∈ done ++ [s], dataSource s' = dataSource s ∧ uid s' = uid s :=
        ⟨s, by simp, rfl, rfl⟩
      rw [if_pos ⟨rfl, rfl⟩, hget]
      by_cases hvar : var ∈ infosDict.keys
      · rw [if_pos hvar, if_pos ⟨hvar, hmem⟩, hold, h.getD_valsAt hvar]
        simp
      · rw [if_neg hvar, if_neg fun h => hvar h.1, hold, h, if_neg fun h => hvar h.1]
    · have hne : ¬(dataSource s = ds ∧ uid s = u) := fun h => hsame ⟨h.1.symm, h.2.symm⟩
      rw [if_neg hsame, h]
      simp [hne]

theorem exists_groupByUid (hcols : ∀ var ∈ infosDict.items, var.2 = samples.map (value var.1)) :
    ∃ groups, groupByUid (samples.map dataSource) (samples.map uid) infosDict = .ok groups ∧
      Grouped dataSource uid value infosDict.keys samples groups := by
  have hrun : ∀ (todo done : List S) (groups : Groups K), done ++ todo = samples →
      Grouped dataSource uid value infosDict.keys done groups →
      ∃ groups', ((todo.map dataSource).zipIdx done.length).foldlM
          (groupStep (samples.map uid) infosDict) groups = .ok groups' ∧
        Grouped dataSource uid value infosDict.keys samples groups' := by
    intro todo
    induction todo with
    | nil =>
      intro done groups hall h
      rw [append_nil] at hall
      exact ⟨groups, rfl, hall ▸ h⟩
    | cons s todo ih =>
      intro done groups hall h
      have hs : samples[done.length]? = some s := by
        rw [← hall]
        simp
      obtain ⟨groups₁, hstep, h₁⟩ := groupStep_spec hcols hs h
      obtain ⟨groups', hrest, h'⟩ := ih (done ++ [s]) groups₁ (by rw [← hall]; simp) h₁
      rw [length_append] at hrest
      refine ⟨groups', ?_, h'⟩
      rw [map_cons, zipIdx_cons, foldlM_cons, hstep]
      exact hrest
  exact hrun samples [] Dict.empty rfl fun ds u var => by simp [valsAt, Dict.get?, Dict.empty]

end

end Groups

/-- Metrics exist exactly when every group is skipped or has numbers only. -/
theorem exists_processValidationMetrics_iff {S : Type} (np : NumPy K) (seed : Nat)
    {samples : List S} {dataSource uid : S → String} {value : String → S → Value K}
    {infosDict : Dict (List (Value K))}
    (hcols : ∀ var ∈ infosDict.items, var.2 = samples.map (value var.1)) :
    (∃ metrics, processValidationMetrics np (samples.map dataSource) (samples.map uid) infosDict
        seed = .ok metrics) ↔
      ∀ var ∈ infosDict.keys, ∀ s ∈ samples, Averages
        ((samples.filter fun s' => dataSource s' = dataSource s ∧ uid s' = uid s).map (value var)) := by
  obtain ⟨groups, hgroups, hvals⟩ := exists_groupByUid hcols
  have hreturn : (∃ metrics, processValidationMetrics np (samples.map dataSource)
      (samples.map uid) infosDict seed = .ok metrics) ↔
      ∃ metrics, groups.mapValsM (fun uid2var2vals =>
        uid2var2vals.mapValsM (uidMetrics np seed)) = .ok metrics := by
    unfold processValidationMetrics
    rw [hgroups, ok_bind]
    constructor
    · rintro ⟨metrics, h⟩
      obtain ⟨uidMetrics, huid, -⟩ := bind_eq_ok.1 h
      exact ⟨uidMetrics, huid⟩
    · rintro ⟨uidMetrics, huid⟩
      exact ⟨aggregate uidMetrics, by rw [huid]; rfl⟩
  have hat : ∀ source ∈ groups.items, ∀ u ∈ source.2.items, ∀ var ∈ u.2.items,
      valsAt groups source.1 u.1 var.1 = some var.2 := by
    intro source hsource u hu var hvar
    unfold valsAt
    rw [get?_eq_some hsource, bind_some, get?_eq_some hu, bind_some,
      get?_eq_some hvar]
  have hgroup : ∀ source ∈ groups.items, ∀ u ∈ source.2.items, ∀ var ∈ u.2.items,
      var.2 = (samples.filter fun s => dataSource s = source.1 ∧ uid s = u.1).map (value var.1) := by
    intro source hsource u hu var hvar
    have h := hat source hsource u hu var hvar
    rw [hvals] at h
    split at h
    · exact (some.inj h).symm
    · cases h
  have hmetrics : ∀ source ∈ groups.items, ∀ u ∈ source.2.items,
      (∃ varDict, uidMetrics np seed u.2 = .ok varDict) ↔
        ∀ var ∈ u.2.items, Averages var.2 := fun source hsource u hu =>
    exists_uidMetrics_iff np seed fun var hvar => by
      rw [hgroup source hsource u hu var hvar, length_map]
  rw [hreturn, exists_mapValsM_iff]
  constructor
  · intro h var hvar s hs
    have hsome : valsAt groups (dataSource s) (uid s) var = some _ :=
      (hvals _ _ _).trans (if_pos ⟨hvar, s, hs, rfl, rfl⟩)
    obtain ⟨var2vals, hvar2vals, hlast⟩ := bind_eq_some_iff.1 hsome
    obtain ⟨uid2var2vals, hsource, huid⟩ := bind_eq_some_iff.1 hvar2vals
    have hsource := mem_items_iff.2 hsource
    have huid := mem_items_iff.2 huid
    have hall := exists_mapValsM_iff.1 (h _ hsource) _ huid
    exact (hmetrics _ hsource _ huid).1 hall _ (mem_items_iff.2 hlast)
  · intro h source hsource
    refine exists_mapValsM_iff.2 fun u hu => (hmetrics source hsource u hu).2 ?_
    intro var hvar
    have hsome := hat source hsource u hu var hvar
    rw [hvals] at hsome
    split at hsome
    · grind
    · cases hsome

end Verl.Validation
