import Verl.SingleController.Dispatch
import Verl.Protocol.Chunks
import Verl.Protocol.RoundTrips

/-!
# The caller's objects in a padded call (`verl/single_controller/base/decorator.py`)

`DataProto.padding` appends rows to the object it is called on, and with auto padding it is called
on the arguments themselves.  The workers get copies; the caller keeps the object.

    callOnObjects … objects = (result, objects after the call)
    first padded argument with len % world_size = 0      → the objects stay as they were
    any other number of rows                             → the argument has more rows afterwards

`select_idxs`, `repeat`, `concat` and `chunk` build new objects: `padding` is the one step that
writes to the caller's.
-/

namespace Verl

open List Function

variable {τ ν τ' ν' : Type}

/-! ## Algorithm -/

/-- The `DataProto` objects of the calling process, each under its name. -/
abbrev Objects (τ ν : Type) := Nat → DataProto τ ν

/-- Code of the caller: what it has written to the objects stays when it raises. -/
abbrev Caller (τ ν α : Type) := ExceptT PyErr (StateM (Objects τ ν)) α

/-- The length the padded arguments share and how many rows each gets; the first one decides. -/
def sharedPadding (chunks : Nat) (state : Option (Nat × Nat)) (n : Nat) :
    Except PyErr (Nat × Nat) :=
  match state with
  | none =>
    if chunks = 0 then .error .zeroDivisionError
    else .ok (n, if n % chunks > 0 then chunks - n % chunks else 0)
  | some (dataProtoLen, paddingSize) => do
    pyAssert (dataProtoLen == n)
      s!"expecting all arg share same length of {dataProtoLen}, but got {n}"
    return (dataProtoLen, paddingSize)

/-- `obj.padding(padding_size)`: it sets `batch` and `non_tensor_batch` of the object. -/
def padObject (obj paddingSize : Nat) : Caller τ ν Unit := do
  let objects ← get
  let padded ← (objects obj).padding paddingSize
  set (Function.update objects obj padded)

/-- `_padding_and_split_data`; the state is `(data_proto_len, padding_size)`. -/
def paddingAndSplitObject (autoPadding : Bool) (chunks : Nat) (state : Option (Nat × Nat))
    (obj : Nat) : Caller τ ν (Option (Nat × Nat) × List (DataProto τ ν)) := do
  let objects ← get
  if (objects obj).isPaddingEnabled autoPadding then
    let shared ← sharedPadding chunks state (objects obj).len
    padObject obj shared.2
    let objects ← get
    let pieces ← (objects obj).chunk autoPadding chunks
    return (some shared, pieces)
  else
    let pieces ← (objects obj).chunk autoPadding chunks
    return (state, pieces)

/-- The arguments one after the other, with the state handed on. -/
def paddingAndSplitObjects (autoPadding : Bool) (chunks : Nat) :
    Option (Nat × Nat) → List Nat →
      Caller τ ν (Option (Nat × Nat) × List (List (DataProto τ ν)))
  | state, [] => return (state, [])
  | state, obj :: objs => do
    let split ← paddingAndSplitObject autoPadding chunks state obj
    let rest ← paddingAndSplitObjects autoPadding chunks split.1 objs
    return (rest.1, split.2 :: rest.2)

/-- `dispatch_dp_compute_data_proto`. -/
def dispatchObjects (autoPadding : Bool) (worldSize : Nat) (args : List Nat)
    (kwargs : List (String × Nat)) : Caller τ ν (SplitArgs (DataProto τ ν)) := do
  let splittedArgs ← paddingAndSplitObjects autoPadding worldSize none args
  let splittedVals ← paddingAndSplitObjects autoPadding worldSize splittedArgs.1
    (kwargs.map Prod.snd)
  return {
    args := splittedArgs.2
    kwargs := (kwargs.map Prod.fst).zip splittedVals.2
    paddingSize := splittedVals.1.map Prod.snd }

/-- What `func_generator` does with the pieces: the workers run on copies of them, and the rows of
the padding are dropped from the output. -/
def executeAndCollect (worldSize : Nat)
    (method : Nat → List (DataProto τ ν) → List (String × DataProto τ ν) →
      Except PyErr (DataProto τ' ν'))
    (split : SplitArgs (DataProto τ ν)) : Except PyErr (DataProto τ' ν') := do
  let paddingCount := split.paddingSize.getD 0
  let output ← executeAll worldSize method split
  let output ← collectDpComputeDataProto worldSize output
  if paddingCount > 0 then
    output.selectIdxs ((List.range output.len).take (output.len - paddingCount))
  else return output

/-- `func_generator` of a blocking method with `Dispatch.DP_COMPUTE_PROTO`, called on objects. -/
def callOnObjects (autoPadding : Bool) (worldSize : Nat)
    (method : Nat → List (DataProto τ ν) → List (String × DataProto τ ν) →
      Except PyErr (DataProto τ' ν'))
    (args : List Nat) (kwargs : List (String × Nat)) : Caller τ ν (DataProto τ' ν') := do
  let split ← dispatchObjects autoPadding worldSize args kwargs
  executeAndCollect worldSize method split

/-! ## Property -/

/-- The arguments are after the call what they were before it, and a second call does what the
first one did. -/
structure KeepsArguments (autoPadding : Bool) (worldSize : Nat)
    (method : Nat → List (DataProto τ ν) → List (String × DataProto τ ν) →
      Except PyErr (DataProto τ' ν'))
    (args : List Nat) (kwargs : List (String × Nat)) (objects : Objects τ ν) : Prop where
  unchanged : ∀ obj ∈ args ++ kwargs.map Prod.snd,
    (callOnObjects autoPadding worldSize method args kwargs objects).2 obj = objects obj
  sameAgain : (callOnObjects autoPadding worldSize method args kwargs
      (callOnObjects autoPadding worldSize method args kwargs objects).2).1
    = (callOnObjects autoPadding worldSize method args kwargs objects).1

/-- An argument without padding is cut into `k` pieces of one size, or the call raises here. -/
def Cuttable (k : Nat) (d : DataProto τ ν) : Prop :=
  1 ≤ k ∧ k ∣ d.len ∧ (d.len = 0 → d.batch = none)

/-- The first padded argument the call comes to has a multiple of `k` rows, or `concat` refuses to
put its `meta_info` next to itself. -/
def NoRowsAdded (autoPadding : Bool) (k : Nat) : List (DataProto τ ν) → Prop
  | [] => True
  | d :: ds =>
    if d.isPaddingEnabled autoPadding then
      k = 0 ∨ k ∣ d.len ∨ ¬ DataProto.Mergeable [d.metaInfo, d.metaInfo]
    else Cuttable k d → NoRowsAdded autoPadding k ds

/-! ## Lemmas: code of the caller -/

theorem caller_bind {α β : Type} (x : Caller τ ν α) (f : α → Caller τ ν β) (objects : Objects τ ν) :
    (x >>= f) objects = match x objects with
      | (.ok a, after) => f a after
      | (.error e, after) => (.error e, after) := by
  show (match x objects with
    | (a, after) => (ExceptT.bindCont f a) after) = _
  rcases x objects with ⟨a | a, after⟩ <;> rfl

@[simp] theorem caller_get (objects : Objects τ ν) :
    (get : Caller τ ν (Objects τ ν)) objects = (.ok objects, objects) := rfl

@[simp] theorem caller_set (after objects : Objects τ ν) :
    (set after : Caller τ ν PUnit) objects = (.ok ⟨⟩, after) := rfl

@[simp] theorem caller_lift {α : Type} (x : Except PyErr α) (objects : Objects τ ν) :
    (liftM x : Caller τ ν α) objects = (x, objects) := rfl

/-! ## Lemmas: what one argument does to the objects -/

namespace DataProto

variable {items : List (String × PyVal)} {d d' : DataProto τ ν}

/-- The loop of `concat` compares every item with the value that is there already. -/
theorem pyEq_of_foldlM_mergeMetaItem {acc r : List PyVal × Dict PyVal} (h : items.foldlM mergeMetaItem acc = .ok r)
    {p : String × PyVal} (hp : p ∈ items) (hkey : p.1 ≠ "metrics") {v : PyVal}
    (hv : acc.2.get? p.1 = some v) : v.pyEq p.2 = true := by
  obtain ⟨before, later, rfl⟩ := append_of_mem hp
  rw [foldlM_append, bind_eq_ok] at h
  obtain ⟨acc', hbefore, h⟩ := h
  rw [foldlM_cons, bind_eq_ok] at h
  obtain ⟨next, hstep, -⟩ := h
  have hget := foldlM_mergeMetaItem_get? hbefore hkey
  rw [hv] at hget
  unfold mergeMetaItem at hstep
  rw [if_neg hkey, hget] at hstep
  obtain ⟨u, hassert, -⟩ := bind_eq_ok.1 hstep
  exact pyAssert_eq_ok.1 hassert

theorem fst_of_mergeMetaItem {acc r : List PyVal × Dict PyVal} {p : String × PyVal}
    (h : mergeMetaItem acc p = .ok r) : r.1 = acc.1 ++ metricsOf p := by
  unfold mergeMetaItem at h
  unfold metricsOf
  by_cases hkey : p.1 = "metrics"
  · grind
  · rw [if_neg hkey] at h ⊢
    rw [append_nil]
    split at h
    · obtain ⟨-, -, hacc⟩ := bind_eq_ok.1 h
      cases hacc
      rfl
    · cases h
      rfl

theorem fst_of_foldlM_mergeMetaItem {acc r : List PyVal × Dict PyVal} (h : items.foldlM mergeMetaItem acc = .ok r) :
    r.1 = acc.1 ++ items.flatMap metricsOf := by
  induction items generalizing acc with
  | nil =>
    cases h
    exact (append_nil _).symm
  | cons p items ih =>
    rw [foldlM_cons, bind_eq_ok] at h
    obtain ⟨acc', hstep, h⟩ := h
    rw [ih h, fst_of_mergeMetaItem hstep, flatMap_cons, append_assoc]

theorem eq_dict_of_asDict {method : String} {v : PyVal} {d : Dict PyVal}
    (h : asDict method v = .ok d) : (∃ items, v = .dict items) ∧ d.keys = v.keys := by
  cases v with
  | dict items =>
    cases h
    exact ⟨⟨items, rfl⟩, rfl⟩
  | _ => cases h

/-- What `list_of_dict_to_dict_of_list` accepts has no key the first dictionary lacks. -/
theorem keys_of_listOfDictToDictOfList {β : Type} {first : Dict β} {rest : List (Dict β)}
    {r : Dict (List β)} (h : listOfDictToDictOfList (first :: rest) = .ok r) :
    ∀ d ∈ first :: rest, ∀ key ∈ d.keys, key ∈ first.keys := by
  unfold listOfDictToDictOfList at h
  dsimp only at h
  split at h
  · cases h
  next hnone =>
    intro d hd key hkey
    have hin := find?_eq_none.1 hnone key (mem_flatMap.2 ⟨d, hd, hkey⟩)
    simpa using hin

theorem mergeable_of_mergeMetaInfo {m merged : Dict PyVal}
    (h : mergeMetaInfo [m, m] = .ok merged) : Mergeable [m, m] := by
  have hitems : [m, m].flatMap Dict.items = m.items ++ m.items := by simp
  unfold mergeMetaInfo at h
  rw [bind_eq_ok] at h
  obtain ⟨r, hfold, h⟩ := h
  have hmetrics : r.1 = allMetrics [m, m] := by
    rw [fst_of_foldlM_mergeMetaItem hfold]
    rfl
  -- the metrics: all of them are dictionaries, with the keys of the first
  have hdicts : (∀ v ∈ allMetrics [m, m], ∃ items, v = .dict items) ∧
      ∀ v ∈ allMetrics [m, m], ∀ first ∈ (allMetrics [m, m]).head?,
        ∀ key ∈ v.keys, key ∈ first.keys := by
    rw [← hmetrics]
    dsimp only at h
    cases hall : r.1 with
    | nil => simp
    | cons first rest =>
      simp only [hall] at h
      obtain ⟨dicts, hdicts, h⟩ := bind_eq_ok.1 h
      obtain ⟨lists, hlists, -⟩ := bind_eq_ok.1 h
      obtain ⟨d, hd, hdicts⟩ := bind_eq_ok.1 hdicts
      obtain ⟨ds, hds, hdicts⟩ := bind_eq_ok.1 hdicts
      cases hdicts
      have hkeys := keys_of_listOfDictToDictOfList hlists
      have heach : ∀ v ∈ first :: rest, (∃ items, v = .dict items) ∧
          ∀ key ∈ v.keys, key ∈ first.keys := by
        intro v hv
        have hfirst := eq_dict_of_asDict hd
        rcases mem_cons.1 hv with rfl | hv
        · exact ⟨hfirst.1, fun key hkey => hkey⟩
        · obtain ⟨e, hmem, he⟩ : ∃ e ∈ ds, asDict "items" v = .ok e := by
            have hforall := forall₂_of_mapM_eq_ok hds
            obtain ⟨i, hi, rfl⟩ := mem_iff_getElem.1 hv
            have hlen := hforall.length_eq
            exact ⟨ds[i], getElem_mem (by omega), hforall.get hi (by omega)⟩
          have hv' := eq_dict_of_asDict he
          refine ⟨hv'.1, fun key hkey => ?_⟩
          rw [← hfirst.2]
          exact hkeys e (mem_cons_of_mem _ hmem) key (by rw [hv'.2]; exact hkey)
      refine ⟨fun v hv => (heach v hv).1, fun v hv w hw => ?_⟩
      cases hw
      exact (heach v hv).2
  refine ⟨?_, hdicts.1, hdicts.2⟩
  -- the other values: the second copy of an item is compared with the first
  have hself : ∀ p ∈ m.items, p.1 ≠ "metrics" → p.2.pyEq p.2 = true := by
    intro p hp hkey
    rw [hitems, foldlM_append, bind_eq_ok] at hfold
    obtain ⟨acc, hfirst, hsecond⟩ := hfold
    have hget := foldlM_mergeMetaItem_get? hfirst hkey
    rw [show m.items.lookup p.1 = m.get? p.1 from rfl, Dict.get?_eq_some hp] at hget
    exact pyEq_of_foldlM_mergeMetaItem hsecond hp hkey hget
  intro p hp q hq hpq hkey
  rw [hitems, mem_append, or_self] at hp hq
  have hp' : m.get? p.1 = some p.2 := Dict.get?_eq_some hp
  have hq' : m.get? q.1 = some q.2 := Dict.get?_eq_some hq
  rw [hpq, hq', Option.some_inj] at hp'
  rw [hp']
  exact hself p hp hkey

/-- `padding` raises when `concat` cannot merge the `meta_info` with itself. -/
theorem mergeable_of_padding {p : Nat} (hp : p ≠ 0)
    (h : d.padding p = .ok d') : Mergeable [d.metaInfo, d.metaInfo] := by
  have hnew : ∀ {batch : Option (TensorDict τ)} {cols : Dict (List ν)} {m : Dict PyVal}
      {r : DataProto τ ν}, new batch cols m = .ok r → r.metaInfo = m := by
    intro batch cols m r hr
    obtain ⟨-, -, hr⟩ := bind_eq_ok.1 hr
    cases hr
    rfl
  unfold padding at h
  rw [if_neg hp, bind_eq_ok] at h
  obtain ⟨candidate, hcandidate, h⟩ := h
  obtain ⟨part, hpart, h⟩ := bind_eq_ok.1 h
  obtain ⟨padded, hpadded, -⟩ := bind_eq_ok.1 h
  have hcandidateMeta : candidate.metaInfo = d.metaInfo := by
    unfold selectIdxs at hcandidate
    dsimp only at hcandidate
    split_ifs at hcandidate
    exact hnew hcandidate
  have hpartMeta : part.metaInfo = d.metaInfo := by
    rw [← hcandidateMeta]
    exact hnew hpart
  have hmerged := metaInfo_of_concat hpadded
  rw [map_cons, map_singleton, hpartMeta] at hmerged
  exact mergeable_of_mergeMetaInfo hmerged

/-- An argument after `padding`: it has more rows, and the `meta_info` it had. -/
theorem spec_of_padding (hwf : d.WellFormed) (hn : 1 ≤ d.len) {p : Nat} (h : d.padding p = .ok d') :
    d'.WellFormed ∧ d'.len = d.len + p ∧ d'.metaInfo = d.metaInfo := by
  have hpadding := padding_eq hwf hn p fun hp => mergeMetaInfo_eq_ok (mergeable_of_padding hp h)
  rw [h] at hpadding
  cases hpadding
  have hin : ∀ i ∈ range d.len ++ replicate p (d.len - 1), i < d.len := by grind
  refine ⟨wellFormed_gather hwf hin, ?_, rfl⟩
  rw [len_gather hwf hin, length_append, length_range, length_replicate]

theorem chunk_isOk_iff {d : DataProto τ ν} (hwf : d.WellFormed) {autoPadding : Bool}
    (hpad : d.isPaddingEnabled autoPadding = false) (k : Nat) :
    (∃ pieces, d.chunk autoPadding k = .ok pieces) ↔ Cuttable k d := by
  cases hb : d.batch with
  | some td =>
    rw [chunk_ok_iff hwf hb, hpad]
    unfold Cuttable
    rw [hb]
    constructor
    · rintro ⟨hk, hdvd, hlen⟩
      refine ⟨hk, by simpa using hdvd, fun hzero => ?_⟩
      rw [hzero, chunkSizes_zero hk, length_nil] at hlen
      omega
    · rintro ⟨hk, ⟨s, hs⟩, hzero⟩
      refine ⟨hk, Or.inr ⟨s, hs⟩, ?_⟩
      rcases Nat.eq_zero_or_pos s with rfl | hs1
      · cases hzero hs
      · rw [hs, chunkSizes_mul hk hs1, length_replicate]
  | none =>
    constructor
    · rintro ⟨pieces, h⟩
      unfold chunk at h
      by_cases hk : k = 0
      · rw [if_pos hk] at h
        cases h
      rw [if_neg hk, hpad, Bool.false_or] at h
      obtain ⟨u, hassert, -⟩ := bind_eq_ok.1 h
      have hmod := pyAssert_eq_ok.1 hassert
      rw [beq_iff_eq] at hmod
      exact ⟨Nat.pos_of_ne_zero hk, Nat.dvd_of_mod_eq_zero hmod, fun _ => hb⟩
    · rintro ⟨hk, hdvd, -⟩
      have hlen : (d.chunkPieces k).length = k := by
        simp [chunkPieces, arraySplitSizes, hb, length_pieceIdxs, length_map, length_range]
      refine ⟨_, chunk_eq_chunkPieces hwf hk ?_ hlen⟩
      rw [Nat.mod_eq_zero_of_dvd hdvd, beq_self_eq_true, Bool.or_true]

end DataProto

section Call

variable {autoPadding : Bool} {k : Nat} {state : Option (Nat × Nat)} {objects : Objects τ ν}
  {obj : Nat}

theorem paddingAndSplitObject_of_not_enabled
    (hpad : (objects obj).isPaddingEnabled autoPadding = false) :
    paddingAndSplitObject autoPadding k state obj objects
      = (((objects obj).chunk autoPadding k).map fun pieces => (state, pieces), objects) := by
  unfold paddingAndSplitObject
  rw [caller_bind, caller_get]
  dsimp only
  rw [hpad]
  cases (objects obj).chunk autoPadding k <;> rfl

theorem paddingAndSplitObject_of_enabled
    (hpad : (objects obj).isPaddingEnabled autoPadding = true) :
    paddingAndSplitObject autoPadding k state obj objects
      = match sharedPadding k state (objects obj).len with
        | .error e => (.error e, objects)
        | .ok shared =>
          match (objects obj).padding shared.2 with
          | .error e => (.error e, objects)
          | .ok padded => ((padded.chunk autoPadding k).map fun pieces => (some shared, pieces),
              update objects obj padded) := by
  unfold paddingAndSplitObject
  rw [caller_bind, caller_get]
  dsimp only
  rw [hpad, if_pos rfl, caller_bind, caller_lift]
  cases sharedPadding k state (objects obj).len with
  | error e => rfl
  | ok shared =>
    dsimp only
    unfold padObject
    rw [caller_bind, caller_bind, caller_get]
    dsimp only
    rw [caller_bind, caller_lift]
    cases (objects obj).padding shared.2 with
    | error e => rfl
    | ok padded =>
      dsimp only
      rw [caller_set]
      dsimp only
      rw [caller_bind, caller_get]
      dsimp only
      rw [caller_bind, caller_lift, update_self]
      cases padded.chunk autoPadding k <;> rfl

/-- The rows the padded arguments get are those the first one needs. -/
def Shared (k : Nat) (state : Option (Nat × Nat)) : Prop :=
  ∀ s, state = some s → s.2 = paddingCount s.1 k

theorem shared_none : Shared k none := by
  intro s hs
  cases hs

theorem eq_of_sharedPadding (hstate : Shared k state) {n : Nat} {shared : Nat × Nat}
    (h : sharedPadding k state n = .ok shared) : shared = (n, paddingCount n k) := by
  unfold sharedPadding at h
  cases state with
  | none =>
    split_ifs at h <;> (cases h; simp [paddingCount, *])
  | some s =>
    obtain ⟨u, hassert, h⟩ := bind_eq_ok.1 h
    cases h
    have hlen := pyAssert_eq_ok.1 hassert
    rw [beq_iff_eq] at hlen
    rw [← hlen, ← hstate s rfl]

/-- The call writes nothing but more rows. -/
def Grown (objects after : Objects τ ν) : Prop :=
  ∀ obj, (after obj).WellFormed ∧ (objects obj).len ≤ (after obj).len

/-- What an argument leaves: no object has fewer rows, and the padding is still the one of the
shared length. -/
theorem grown_of_paddingAndSplitObject (hwf : ∀ obj, (objects obj).WellFormed)
    (hstate : Shared k state) :
    Grown objects (paddingAndSplitObject autoPadding k state obj objects).2 ∧
    ∀ r, (paddingAndSplitObject autoPadding k state obj objects).1 = .ok r → Shared k r.1 := by
  have hsame : Grown objects objects := fun other => ⟨hwf other, Nat.le_refl _⟩
  cases hpad : (objects obj).isPaddingEnabled autoPadding with
  | false =>
    rw [paddingAndSplitObject_of_not_enabled hpad]
    refine ⟨hsame, fun r hr => ?_⟩
    obtain ⟨pieces, -, rfl⟩ := except_map_eq_ok.1 hr
    exact hstate
  | true =>
    rw [paddingAndSplitObject_of_enabled hpad]
    cases hshared : sharedPadding k state (objects obj).len with
    | error e => exact ⟨hsame, fun r hr => by cases hr⟩
    | ok shared =>
      dsimp only
      cases hpadding : (objects obj).padding shared.2 with
      | error e => exact ⟨hsame, fun r hr => by cases hr⟩
      | ok padded =>
        have heq := eq_of_sharedPadding hstate hshared
        rw [heq] at hpadding
        have hpadded : padded.WellFormed ∧ (objects obj).len ≤ padded.len := by
          by_cases hn : 1 ≤ (objects obj).len
          · obtain ⟨hwf', hlen, -⟩ := DataProto.spec_of_padding (hwf obj) hn hpadding
            exact ⟨hwf', by omega⟩
          · have hzero : (objects obj).len = 0 := by omega
            rw [hzero] at hpadding
            cases hpadding
            exact ⟨hwf obj, Nat.le_refl _⟩
        refine ⟨fun other => ?_, fun r hr => ?_⟩
        · grind
        · obtain ⟨pieces, -, rfl⟩ := except_map_eq_ok.1 hr
          intro s hs
          cases hs
          rw [heq]

variable (objs : List Nat)

theorem paddingAndSplitObjects_cons :
    paddingAndSplitObjects autoPadding k state (obj :: objs) objects
      = match paddingAndSplitObject autoPadding k state obj objects with
        | (.ok split, after) =>
          ((paddingAndSplitObjects autoPadding k split.1 objs after).1.map fun rest =>
            (rest.1, split.2 :: rest.2), (paddingAndSplitObjects autoPadding k split.1 objs after).2)
        | (.error e, after) => (.error e, after) := by
  rw [paddingAndSplitObjects, caller_bind]
  rcases paddingAndSplitObject autoPadding k state obj objects with ⟨e | split, after⟩
  · rfl
  · dsimp only
    rw [caller_bind]
    rcases paddingAndSplitObjects autoPadding k split.1 objs after with ⟨e | rest, last⟩ <;> rfl

theorem objects_of_cons :
    (paddingAndSplitObjects autoPadding k state (obj :: objs) objects).2
      = match paddingAndSplitObject autoPadding k state obj objects with
        | (.ok split, after) => (paddingAndSplitObjects autoPadding k split.1 objs after).2
        | (.error _, after) => after := by
  rw [paddingAndSplitObjects_cons]
  rcases paddingAndSplitObject autoPadding k state obj objects with ⟨e | split, after⟩ <;> rfl

theorem grown_of_paddingAndSplitObjects (hwf : ∀ obj, (objects obj).WellFormed) (hstate : Shared k state) :
    Grown objects (paddingAndSplitObjects autoPadding k state objs objects).2 := by
  induction objs generalizing state objects with
  | nil => exact fun other => ⟨hwf other, Nat.le_refl _⟩
  | cons obj objs ih =>
    obtain ⟨hgrown, hshared⟩ :
        Grown objects (paddingAndSplitObject autoPadding k state obj objects).2 ∧
        ∀ r, (paddingAndSplitObject autoPadding k state obj objects).1 = .ok r → Shared k r.1 :=
      grown_of_paddingAndSplitObject hwf hstate
    rw [objects_of_cons]
    rcases hstep : paddingAndSplitObject autoPadding k state obj objects with ⟨e | split, after⟩
    · grind
    · rw [hstep] at hgrown hshared
      have hrest := ih (fun other => (hgrown other).1) (hshared split rfl)
      exact fun other => ⟨(hrest other).1, (hgrown other).2.trans (hrest other).2⟩

theorem objects_of_append (objs others : List Nat) :
    (paddingAndSplitObjects autoPadding k state (objs ++ others) objects).2
      = match paddingAndSplitObjects autoPadding k state objs objects with
        | (.ok split, after) =>
          (paddingAndSplitObjects autoPadding k split.1 others after).2
        | (.error _, after) => after := by
  induction objs generalizing state objects with
  | nil => rfl
  | cons obj objs ih =>
    rw [cons_append, objects_of_cons, paddingAndSplitObjects_cons]
    rcases paddingAndSplitObject autoPadding k state obj objects with ⟨e | split, after⟩
    · rfl
    · dsimp only
      rw [ih]
      rcases paddingAndSplitObjects autoPadding k split.1 objs after with ⟨e | rest, last⟩ <;> rfl

/-- The objects after the call: those after splitting the arguments and then the keywords. -/
theorem objects_of_callOnObjects
    (method : Nat → List (DataProto τ ν) → List (String × DataProto τ ν) → Except PyErr (DataProto τ' ν'))
    (args : List Nat) (kwargs : List (String × Nat)) :
    (callOnObjects autoPadding k method args kwargs objects).2
      = (paddingAndSplitObjects autoPadding k none (args ++ kwargs.map Prod.snd) objects).2 := by
  rw [objects_of_append]
  unfold callOnObjects dispatchObjects
  rw [caller_bind, caller_bind]
  rcases paddingAndSplitObjects autoPadding k none args objects with ⟨e | split, after⟩
  · rfl
  · dsimp only
    rw [caller_bind]
    rcases paddingAndSplitObjects autoPadding k split.1 (kwargs.map Prod.snd) after
      with ⟨e | rest, last⟩ <;> rfl

theorem objects_of_noPadding (hstate : ∃ n, state = some (n, 0)) :
    (paddingAndSplitObjects autoPadding k state objs objects).2 = objects := by
  induction objs generalizing state with
  | nil => rfl
  | cons obj objs ih =>
    obtain ⟨n, rfl⟩ := hstate
    rw [objects_of_cons]
    cases hpad : (objects obj).isPaddingEnabled autoPadding with
    | false =>
      rw [paddingAndSplitObject_of_not_enabled hpad]
      cases (objects obj).chunk autoPadding k with
      | error e => rfl
      | ok pieces => exact ih ⟨n, rfl⟩
    | true =>
      rw [paddingAndSplitObject_of_enabled hpad]
      cases hshared : sharedPadding k (some (n, 0)) (objects obj).len with
      | error e => rfl
      | ok shared =>
        obtain ⟨u, -, hsame⟩ := bind_eq_ok.1 hshared
        cases hsame
        show (match (((objects obj).chunk autoPadding k).map fun pieces => (some (n, 0), pieces),
          update objects obj (objects obj)) with
          | (.ok split, after) => (paddingAndSplitObjects autoPadding k split.1 objs after).2
          | (.error _, after) => after) = objects
        rw [update_eq_self]
        cases (objects obj).chunk autoPadding k with
        | error e => rfl
        | ok pieces => exact ih ⟨n, rfl⟩

/-- Where the first padded argument needs no row, or its `meta_info` does not go with itself, the
objects stay as they are. -/
theorem objects_of_noRowsAdded (hwf : ∀ obj, (objects obj).WellFormed) (objs : List Nat)
    (h : NoRowsAdded autoPadding k (objs.map objects)) :
    (paddingAndSplitObjects autoPadding k none objs objects).2 = objects := by
  induction objs with
  | nil => rfl
  | cons obj objs ih =>
    rw [objects_of_cons]
    rw [map_cons, NoRowsAdded] at h
    cases hpad : (objects obj).isPaddingEnabled autoPadding with
    | false =>
      rw [hpad, if_neg Bool.false_ne_true] at h
      rw [paddingAndSplitObject_of_not_enabled hpad]
      cases hchunk : (objects obj).chunk autoPadding k with
      | error e => rfl
      | ok pieces => exact ih (h ((DataProto.chunk_isOk_iff (hwf obj) hpad k).1 ⟨pieces, hchunk⟩))
    | true =>
      rw [hpad] at h
      rw [paddingAndSplitObject_of_enabled hpad]
      cases hshared : sharedPadding k none (objects obj).len with
      | error e => rfl
      | ok shared =>
        have heq := eq_of_sharedPadding shared_none hshared
        have hk : k ≠ 0 := by
          rintro rfl
          cases hshared
        subst heq
        dsimp only
        by_cases hzero : paddingCount (objects obj).len k = 0
        · rw [hzero]
          show (match (((objects obj).chunk autoPadding k).map fun pieces =>
              (some ((objects obj).len, 0), pieces), update objects obj (objects obj)) with
            | (.ok split, after) => (paddingAndSplitObjects autoPadding k split.1 objs after).2
            | (.error _, after) => after) = objects
          rw [update_eq_self]
          cases (objects obj).chunk autoPadding k with
          | error e => rfl
          | ok pieces => exact objects_of_noPadding objs ⟨_, rfl⟩
        · have hmerge : ¬ DataProto.Mergeable [(objects obj).metaInfo, (objects obj).metaInfo] :=
            (h.resolve_left hk).resolve_left (paddingCount_ne_zero hzero)
          cases hpadding : (objects obj).padding (paddingCount (objects obj).len k) with
          | error e => rfl
          | ok padded => exact absurd (DataProto.mergeable_of_padding hzero hpadding) hmerge

theorem exists_longer_of_not_noRowsAdded (hwf : ∀ obj, (objects obj).WellFormed) (objs : List Nat)
    (h : ¬ NoRowsAdded autoPadding k (objs.map objects)) :
    ∃ obj ∈ objs, (objects obj).len
      < ((paddingAndSplitObjects autoPadding k none objs objects).2 obj).len := by
  induction objs with
  | nil => exact absurd trivial h
  | cons obj objs ih =>
    rw [map_cons, NoRowsAdded] at h
    rw [objects_of_cons]
    cases hpad : (objects obj).isPaddingEnabled autoPadding with
    | false =>
      rw [hpad, if_neg Bool.false_ne_true, Classical.not_imp] at h
      obtain ⟨pieces, hchunk⟩ := (DataProto.chunk_isOk_iff (hwf obj) hpad k).2 h.1
      obtain ⟨longer, hmem, hlen⟩ := ih h.2
      rw [paddingAndSplitObject_of_not_enabled hpad, hchunk]
      exact ⟨longer, mem_cons_of_mem _ hmem, hlen⟩
    | true =>
      rw [hpad, if_pos rfl, not_or, not_or, not_not] at h
      obtain ⟨hk, hdvd, hmerge⟩ := h
      have hn : 1 ≤ (objects obj).len := by
        rcases Nat.eq_zero_or_pos (objects obj).len with hzero | hpos
        · rw [hzero] at hdvd
          exact absurd (dvd_zero k) hdvd
        · exact hpos
      have hcount : 1 ≤ paddingCount (objects obj).len k := by
        unfold paddingCount
        have hmod : (objects obj).len % k ≠ 0 := fun h => hdvd (Nat.dvd_of_mod_eq_zero h)
        have hlt := Nat.mod_lt (objects obj).len (Nat.pos_of_ne_zero hk)
        rw [if_pos (Nat.pos_of_ne_zero hmod)]
        omega
      have hpadding := DataProto.padding_eq (hwf obj) hn (paddingCount (objects obj).len k)
        fun _ => DataProto.mergeMetaInfo_eq_ok hmerge
      obtain ⟨hwf', hlen, -⟩ := DataProto.spec_of_padding (hwf obj) hn hpadding
      have hshared : sharedPadding k none (objects obj).len
          = .ok ((objects obj).len, paddingCount (objects obj).len k) := if_neg hk
      refine ⟨obj, mem_cons_self, ?_⟩
      rw [paddingAndSplitObject_of_enabled hpad, hshared]
      dsimp only
      rw [hpadding]
      dsimp only
      generalize (objects obj).gather _ = padded at hwf' hlen
      have hself : update objects obj padded obj = padded := update_self ..
      cases padded.chunk autoPadding k with
      | error e =>
        show (objects obj).len < (update objects obj padded obj).len
        rw [hself]
        omega
      | ok pieces =>
        have hwfAll : ∀ other, (update objects obj padded other).WellFormed := by grind
        have hstate : Shared k (some ((objects obj).len, paddingCount (objects obj).len k)) := by
          intro s hs
          cases hs
          rfl
        have hrest : Grown (update objects obj padded) (paddingAndSplitObjects autoPadding k
            (some ((objects obj).len, paddingCount (objects obj).len k)) objs
            (update objects obj padded)).2 :=
          grown_of_paddingAndSplitObjects objs hwfAll hstate
        have hle := (hrest obj).2
        rw [hself] at hle
        exact Nat.lt_of_lt_of_le (by omega) hle

/-! ## Lemmas: what the call returns -/

end Call

/-! ## Top theorem -/

/-- A call keeps its arguments exactly if it adds no row to them. -/
theorem keepsArguments_iff_noRowsAdded (autoPadding : Bool) (worldSize : Nat)
    (method : Nat → List (DataProto τ ν) → List (String × DataProto τ ν) → Except PyErr (DataProto τ' ν'))
    (args : List Nat) (kwargs : List (String × Nat)) (objects : Objects τ ν)
    (hwf : ∀ obj, (objects obj).WellFormed) :
    KeepsArguments autoPadding worldSize method args kwargs objects ↔
      NoRowsAdded autoPadding worldSize ((args ++ kwargs.map Prod.snd).map objects) := by
  constructor
  · intro hkeeps
    by_contra hadded
    obtain ⟨obj, hmem, hlen⟩ := exists_longer_of_not_noRowsAdded hwf _ hadded
    have hsame := hkeeps.unchanged obj hmem
    rw [objects_of_callOnObjects] at hsame
    rw [hsame] at hlen
    exact Nat.lt_irrefl _ hlen
  · intro hnone
    have hsame : (callOnObjects autoPadding worldSize method args kwargs objects).2 = objects := by
      rw [objects_of_callOnObjects]
      exact objects_of_noRowsAdded hwf _ hnone
    exact ⟨fun obj _ => by rw [hsame], by rw [hsame]⟩

/-- Three rows on three workers, given by position and by keyword. -/
theorem keepsArguments_threeWorkers :
    KeepsArguments false 3 (plusOne.worker fun i _ => oneMetric "loss" i) [0] [ ("other", 0)]
      (fun _ => threeRows) :=
  (keepsArguments_iff_noRowsAdded false 3 _ [0] [ ("other", 0)] (fun _ => threeRows)
    (fun _ => by decide)).2 (Or.inr (Or.inl ⟨1, rfl⟩))

/-- Three rows on two workers: the caller's object has four rows after the call, and the second
call returns four. -/
theorem not_keepsArguments_twoWorkers :
    let call := callOnObjects false 2 (plusOne.worker fun i _ => oneMetric "loss" i) [0] []
    ¬ KeepsArguments false 2 (plusOne.worker fun i _ => oneMetric "loss" i) [0] []
      (fun _ => threeRows) ∧
    (call fun _ => threeRows).1.map DataProto.len = .ok 3 ∧
    (call (call fun _ => threeRows).2).1.map DataProto.len = .ok 4 := by
  refine ⟨fun h => ?_, rfl, rfl⟩
  have hlen := congrArg DataProto.len (h.unchanged 0 mem_cons_self)
  exact absurd hlen (by decide)

end Verl
