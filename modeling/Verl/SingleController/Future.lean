import Verl.Protocol.Chunks
import Verl.Protocol.RoundTrips
import Verl.SingleController.Dispatch

/-!
# Futures between worker groups (`verl/protocol.py`, `verl/single_controller/ray/base.py`)

A non-blocking call returns a `DataProtoFuture`, the results of the workers before anyone has
asked for them.  It can be passed on: the workers of the next call get the whole of it and cut out
their piece.

    k ∣ data.len → future.get = .ok out            (out the result of the blocking call)
    k₂ ∣ out.len → a call of k₂ workers on future and on out is the same

Auto padding is taken off a `DataProto` only, so the padding rows of another batch stay in the
future.
-/

namespace Verl

open List

variable {τ ν τ' ν' : Type}

/-! ## Algorithm -/

/-- What the workers return or raise, and the arguments `i` and `chunks` of `dispatch_fn`;
`collect_fn` is not called anywhere. -/
structure DataProtoFuture (τ ν : Type) where
  futures : List (Except PyErr (DataProto τ ν))
  dispatchFn : Option (Nat × Nat)

namespace DataProtoFuture

def concat (data : List (Except PyErr (DataProto τ ν))) : DataProtoFuture τ ν where
  futures := data
  dispatchFn := none

def chunk (f : DataProtoFuture τ ν) (chunks : Nat) : List (DataProtoFuture τ ν) :=
  (List.range chunks).map fun i => { f with dispatchFn := some (i, chunks) }

def get (autoPadding : Bool) (f : DataProtoFuture τ ν) : Except PyErr (DataProto τ ν) := do
  let output ← f.futures.mapM id
  let output ← DataProto.concat output
  match f.dispatchFn with
  | none => return output
  | some (i, chunks) =>
    let pieces ← output.chunk autoPadding chunks
    match pieces[i]? with
    | none => throw .indexError
    | some piece => return piece

end DataProtoFuture

/-- `DataProto | DataProtoFuture`. -/
inductive BatchArg (τ ν : Type)
  | data (d : DataProto τ ν)
  | future (f : DataProtoFuture τ ν)

/-- `_padding_and_split_data`; a future is not padded. -/
def paddingAndSplitArg (autoPadding : Bool) (chunks : Nat) (state : Option (Nat × Nat)) :
    BatchArg τ ν → Except PyErr (Option (Nat × Nat) × List (BatchArg τ ν))
  | .data d => do
    let (state, pieces) ← paddingAndSplitData autoPadding chunks state d
    return (state, pieces.map .data)
  | .future f => .ok (state, (f.chunk chunks).map .future)

def paddingAndSplitArgs (autoPadding : Bool) (chunks : Nat) :
    Option (Nat × Nat) → List (BatchArg τ ν) →
      Except PyErr (Option (Nat × Nat) × List (List (BatchArg τ ν)))
  | state, [] => .ok (state, [])
  | state, arg :: args => do
    let (state, pieces) ← paddingAndSplitArg autoPadding chunks state arg
    let (state, rest) ← paddingAndSplitArgs autoPadding chunks state args
    return (state, pieces :: rest)

/-- `dispatch_dp_compute_data_proto` of data and futures. -/
def dispatchDpComputeArgs (autoPadding : Bool) (worldSize : Nat) (args : List (BatchArg τ ν))
    (kwargs : List (String × BatchArg τ ν)) : Except PyErr (SplitArgs (BatchArg τ ν)) := do
  let (state, splittedArgs) ← paddingAndSplitArgs autoPadding worldSize none args
  let (state, splittedVals) ← paddingAndSplitArgs autoPadding worldSize state (kwargs.map Prod.snd)
  return {
    args := splittedArgs
    kwargs := (kwargs.map Prod.fst).zip splittedVals
    paddingSize := state.map Prod.snd }

/-- One argument of `_materialize_futures`. -/
def BatchArg.materialize (autoPadding : Bool) : BatchArg τ ν → Except PyErr (DataProto τ ν)
  | .data d => .ok d
  | .future f => f.get autoPadding

/-- The method of a worker as `register` wraps it. -/
def registered {β : Type} (autoPadding : Bool)
    (method : Nat → List (DataProto τ ν) → List (String × DataProto τ ν) → Except PyErr β)
    (i : Nat) (args : List (BatchArg τ ν)) (kwargs : List (String × BatchArg τ ν)) :
    Except PyErr β := do
  let args ← args.mapM (·.materialize autoPadding)
  let kwargs ← kwargs.mapM fun kwarg => do
    let val ← kwarg.2.materialize autoPadding
    return (kwarg.1, val)
  method i args kwargs

/-- `execute_all`: what the workers will return. -/
def executeAllAsync {α β : Type} (worldSize : Nat)
    (method : Nat → List α → List (String × α) → Except PyErr β) (split : SplitArgs α) :
    Except PyErr (List (Except PyErr β)) :=
  if split.args.all (·.length == worldSize) && split.kwargs.all (·.2.length == worldSize) then
    .ok ((List.range worldSize).map fun i =>
      method i (split.args.filterMap (·[i]?))
        (split.kwargs.filterMap fun kwarg => (kwarg.2[i]?).map fun piece => (kwarg.1, piece)))
  else .error (.typeError "a list instead of a piece")

/-- `func_generator` of a method with `Dispatch.DP_COMPUTE_PROTO`. -/
def funcGenerator (autoPadding blocking : Bool) (worldSize : Nat)
    (method : Nat → List (DataProto τ ν) → List (String × DataProto τ ν) →
      Except PyErr (DataProto τ' ν'))
    (args : List (BatchArg τ ν)) (kwargs : List (String × BatchArg τ ν)) :
    Except PyErr (BatchArg τ' ν') := do
  let split ← dispatchDpComputeArgs autoPadding worldSize args kwargs
  let paddingCount := split.paddingSize.getD 0
  let futures ← executeAllAsync worldSize (registered autoPadding method) split
  if blocking then
    let output ← futures.mapM id
    let output ← collectDpComputeDataProto worldSize output
    if paddingCount > 0 then
      let output ← output.selectIdxs ((List.range output.len).take (output.len - paddingCount))
      return .data output
    else return .data output
  else
    -- a future is neither a `DataProto` nor a list: nothing is dropped
    pyAssert (!futures.isEmpty) "expecting concatable output, but got element type empty"
    pyAssert (futures.length == worldSize) ""
    return .future (DataProtoFuture.concat futures)

/-! ## Lemmas: blocking calls on data -/

section Blocking

variable {autoPadding : Bool}

def SplitArgs.map {α β : Type} (g : α → β) (split : SplitArgs α) : SplitArgs β where
  args := split.args.map (List.map g)
  kwargs := split.kwargs.map (Prod.map id (List.map g))
  paddingSize := split.paddingSize

theorem paddingAndSplitArgs_data (chunks : Nat) (state : Option (Nat × Nat))
    (objs : List (DataProto τ ν)) :
    paddingAndSplitArgs autoPadding chunks state (objs.map .data)
      = (paddingAndSplitAll autoPadding chunks state objs).map fun r =>
          (r.1, r.2.map (List.map .data)) := by
  induction objs generalizing state with
  | nil => rfl
  | cons obj objs ih =>
    rw [map_cons]
    unfold paddingAndSplitArgs paddingAndSplitAll paddingAndSplitArg
    cases hobj : paddingAndSplitData autoPadding chunks state obj with
    | error e =>
      simp only [hobj, except_error_bind]
      rfl
    | ok r =>
      simp only [hobj, ok_bind, pure, Except.pure, ih]
      cases paddingAndSplitAll autoPadding chunks r.1 objs with
      | error e => rfl
      | ok rest => rfl

theorem dispatchDpComputeArgs_data (worldSize : Nat) (args : List (DataProto τ ν))
    (kwargs : List (String × DataProto τ ν)) :
    dispatchDpComputeArgs autoPadding worldSize (args.map .data) (kwargs.map (Prod.map id .data))
      = (dispatchDpComputeDataProto autoPadding worldSize args kwargs).map
          (SplitArgs.map .data) := by
  have hvals : (kwargs.map (Prod.map id (BatchArg.data (τ := τ) (ν := ν)))).map Prod.snd
      = (kwargs.map Prod.snd).map .data := by simp
  have hkeys : (kwargs.map (Prod.map id (BatchArg.data (τ := τ) (ν := ν)))).map Prod.fst
      = kwargs.map Prod.fst := by
    rw [map_map]
    rfl
  unfold dispatchDpComputeArgs dispatchDpComputeDataProto splitArgsKwargsDataProtoWithAutoPadding
  rw [hvals, hkeys, paddingAndSplitArgs_data]
  cases paddingAndSplitAll autoPadding worldSize none args with
  | error e => rfl
  | ok r =>
    simp only [Except.map, ok_bind, paddingAndSplitArgs_data]
    cases paddingAndSplitAll autoPadding worldSize r.1 (kwargs.map Prod.snd) with
    | error e => rfl
    | ok rest =>
      simp only [ok_bind, pure, Except.pure, SplitArgs.map, zip_map_right]

theorem registered_data {β : Type}
    (method : Nat → List (DataProto τ ν) → List (String × DataProto τ ν) → Except PyErr β)
    (i : Nat) (args : List (DataProto τ ν)) (kwargs : List (String × DataProto τ ν)) :
    registered autoPadding method i (args.map .data) (kwargs.map (Prod.map id .data))
      = method i args kwargs := by
  have hargs : (args.map BatchArg.data).mapM (·.materialize autoPadding) = .ok args := by
    rw [mapM_map]
    exact (mapM_eq_ok_map _ id args fun _ _ => rfl).trans (congrArg _ (map_id args))
  have hkwargs : (kwargs.map (Prod.map id BatchArg.data)).mapM (fun kwarg => do
      let val ← kwarg.2.materialize autoPadding
      return (kwarg.1, val)) = .ok kwargs := by
    rw [mapM_map]
    exact (mapM_eq_ok_map _ id kwargs fun _ _ => rfl).trans (congrArg _ (map_id kwargs))
  unfold registered
  rw [hargs, ok_bind, hkwargs, ok_bind]

theorem executeAllAsync_data {β : Type} (worldSize : Nat)
    (method : Nat → List (DataProto τ ν) → List (String × DataProto τ ν) → Except PyErr β)
    (split : SplitArgs (DataProto τ ν)) :
    executeAllAsync worldSize (registered autoPadding method) (split.map .data)
      = executeAllAsync worldSize method split := by
  have hargs : ∀ i : Nat, (split.args.map (List.map BatchArg.data)).filterMap (·[i]?)
      = (split.args.filterMap (·[i]?)).map .data := by grind
  have hkwargs : ∀ i : Nat, (split.kwargs.map (Prod.map id (List.map BatchArg.data))).filterMap
        (fun kwarg => (kwarg.2[i]?).map fun piece => (kwarg.1, piece))
      = (split.kwargs.filterMap fun kwarg => (kwarg.2[i]?).map fun piece =>
          (kwarg.1, piece)).map (Prod.map id .data) := by grind
  unfold executeAllAsync
  simp only [SplitArgs.map, hargs, hkwargs, registered_data, all_map, Function.comp_def,
    length_map, Prod.map_snd]

theorem executeAll_eq {α β : Type} (worldSize : Nat)
    (method : Nat → List α → List (String × α) → Except PyErr β) (split : SplitArgs α) :
    executeAll worldSize method split
      = executeAllAsync worldSize method split >>= fun futures => futures.mapM id := by
  unfold executeAll executeAllAsync
  split
  · simp
  · rfl

/-- A blocking call on data. -/
theorem funcGenerator_data (worldSize : Nat)
    (method : Nat → List (DataProto τ ν) → List (String × DataProto τ ν) → Except PyErr (DataProto τ' ν'))
    (args : List (DataProto τ ν)) (kwargs : List (String × DataProto τ ν)) :
    funcGenerator autoPadding true worldSize method (args.map .data)
        (kwargs.map (Prod.map id .data))
      = (callDpComputeProto autoPadding worldSize method args kwargs).map .data := by
  unfold funcGenerator callDpComputeProto
  rw [dispatchDpComputeArgs_data]
  cases dispatchDpComputeDataProto autoPadding worldSize args kwargs with
  | error e => rfl
  | ok split =>
    show (executeAllAsync worldSize (registered autoPadding method) (split.map .data) >>= _)
      = Except.map _ (executeAll worldSize method split >>= _)
    rw [executeAllAsync_data, executeAll_eq]
    cases executeAllAsync worldSize method split with
    | error e => rfl
    | ok futures =>
      simp only [ok_bind]
      cases futures.mapM id with
      | error e => rfl
      | ok output =>
        simp only [ok_bind]
        cases collectDpComputeDataProto worldSize output with
        | error e => rfl
        | ok out =>
          simp only [ok_bind, if_true]
          have hcount : (split.map (BatchArg.data (τ := τ) (ν := ν))).paddingSize.getD 0
            = split.paddingSize.getD 0 := rfl
          by_cases hpad : split.paddingSize.getD 0 > 0
          · rw [if_pos hpad, if_pos (hcount ▸ hpad), hcount]
            cases out.selectIdxs ((range out.len).take
                (out.len - split.paddingSize.getD 0)) with
            | error e => rfl
            | ok unpadded => rfl
          · rw [if_neg hpad, if_neg (hcount ▸ hpad)]
            rfl

end Blocking

/-! ## Lemmas: the future of a call -/

section NonBlocking

variable {autoPadding : Bool} {worldSize : Nat}

/-- What a call of a method with one argument, cut into `pieces`, returns before the padding is
taken off. -/
def runPieces (worldSize : Nat)
    (method : Nat → List (DataProto τ ν) → List (String × DataProto τ ν) →
      Except PyErr (DataProto τ' ν')) (pieces : List (DataProto τ ν)) :
    Except PyErr (DataProto τ' ν') := do
  let output ← (List.range worldSize).mapM fun i => method i pieces[i]?.toList []
  DataProto.concat output

variable {future : DataProtoFuture τ ν} {x : DataProto τ ν}

theorem collectDpComputeDataProto_eq (hk : 1 ≤ worldSize) {output : List (DataProto τ ν)}
    (hlen : output.length = worldSize) :
    collectDpComputeDataProto worldSize output = DataProto.concat output := by
  have hne : output.isEmpty = false := by grind
  unfold collectDpComputeDataProto
  rw [hne, hlen, beq_self_eq_true, Bool.not_false, pyAssert_true, ok_bind, pyAssert_true,
    ok_bind]

theorem get_concat (futures : List (Except PyErr (DataProto τ ν))) :
    (DataProtoFuture.concat futures).get autoPadding
      = futures.mapM id >>= DataProto.concat := by
  unfold DataProtoFuture.get DataProtoFuture.concat
  cases futures.mapM id with
  | error e => rfl
  | ok output =>
    simp only [ok_bind]
    cases DataProto.concat output with
    | error e => rfl
    | ok out => rfl

theorem length_of_chunk {d : DataProto τ ν} {chunks : Nat} {pieces : List (DataProto τ ν)}
    (h : d.chunk autoPadding chunks = .ok pieces) : pieces.length = chunks := by
  unfold DataProto.chunk at h
  by_cases hzero : chunks = 0
  · rw [if_pos hzero] at h
    cases h
  rw [if_neg hzero] at h
  obtain ⟨_, -, h⟩ := bind_eq_ok.1 h
  obtain ⟨_, -, h⟩ := bind_eq_ok.1 h
  rw [← (forall₂_of_mapM_eq_ok h).length_eq, length_range]

theorem get_piece
    (hnone : future.dispatchFn = none) (hget : future.get autoPadding = .ok x) (i chunks : Nat) :
    DataProtoFuture.get autoPadding { future with dispatchFn := some (i, chunks) }
      = (do
        let pieces ← x.chunk autoPadding chunks
        match pieces[i]? with
        | none => throw .indexError
        | some piece => return piece) := by
  unfold DataProtoFuture.get at hget ⊢
  rw [hnone] at hget
  cases hfutures : future.futures.mapM id with
  | error e =>
    rw [hfutures] at hget
    cases hget
  | ok output =>
    rw [hfutures, ok_bind] at hget
    cases hconcat : DataProto.concat output with
    | error e =>
      rw [hconcat] at hget
      cases hget
    | ok out =>
      rw [hconcat, ok_bind] at hget
      cases hget
      simp only [ok_bind, hconcat]

theorem executeAllAsync_future {β : Type}
    (method : Nat → List (DataProto τ ν) → List (String × DataProto τ ν) → Except PyErr β)
    (future : DataProtoFuture τ ν) :
    executeAllAsync worldSize (registered autoPadding method)
        ⟨[(future.chunk worldSize).map .future], [], none⟩
      = .ok ((range worldSize).map fun i => do
          let piece ← DataProtoFuture.get autoPadding
            { future with dispatchFn := some (i, worldSize) }
          method i [piece] []) := by
  unfold executeAllAsync
  rw [if_pos (by simp [DataProtoFuture.chunk])]
  congr 1
  refine map_congr_left fun i hi => ?_
  have hpiece : ((future.chunk worldSize).map BatchArg.future)[i]?
      = some (.future { future with dispatchFn := some (i, worldSize) }) := by
    unfold DataProtoFuture.chunk
    rw [map_map, getElem?_map, getElem?_range (mem_range.1 hi)]
    rfl
  rw [filterMap_cons, hpiece]
  unfold registered
  rw [filterMap_nil, filterMap_nil, mapM_cons]
  show (BatchArg.materialize autoPadding (.future _) >>= _) >>= _ = _
  unfold BatchArg.materialize
  dsimp only
  cases DataProtoFuture.get autoPadding { future with dispatchFn := some (i, worldSize) } with
  | error e => rfl
  | ok piece => rfl

/-- A call of a future: every worker cuts its piece out of what the future stands for. -/
theorem call_future (blocking : Bool) (hk : 1 ≤ worldSize)
    (method : Nat → List (DataProto τ ν) → List (String × DataProto τ ν) → Except PyErr (DataProto τ' ν'))
    (hnone : future.dispatchFn = none) (hget : future.get autoPadding = .ok x)
    {pieces : List (DataProto τ ν)} (hpieces : x.chunk autoPadding worldSize = .ok pieces) :
    (funcGenerator autoPadding blocking worldSize method [.future future] [] >>=
        BatchArg.materialize autoPadding) = runPieces worldSize method pieces := by
  have hfutures : (range worldSize).map (fun i => do
        let piece ← DataProtoFuture.get autoPadding
          { future with dispatchFn := some (i, worldSize) }
        method i [piece] [])
      = (range worldSize).map fun i => method i pieces[i]?.toList [] := by
    refine map_congr_left fun i hi => ?_
    rw [mem_range, ← length_of_chunk hpieces] at hi
    rw [get_piece hnone hget, hpieces, ok_bind, getElem?_eq_getElem hi]
    rfl
  have hdispatch : dispatchDpComputeArgs autoPadding worldSize [BatchArg.future future] []
      = .ok ⟨[(future.chunk worldSize).map .future], [], none⟩ := rfl
  unfold funcGenerator runPieces
  rw [hdispatch, ok_bind, executeAllAsync_future, hfutures]
  simp only [ok_bind]
  have hmapM : ((range worldSize).map fun i => method i pieces[i]?.toList []).mapM id
      = (range worldSize).mapM fun i => method i pieces[i]?.toList [] := mapM_map
  cases blocking with
  | true =>
    rw [hmapM]
    cases houtput : (range worldSize).mapM fun i => method i pieces[i]?.toList [] with
    | error e => rfl
    | ok output =>
      have hcount : output.length = worldSize := by
        rw [← (forall₂_of_mapM_eq_ok houtput).length_eq, length_range]
      rw [ok_bind, collectDpComputeDataProto_eq hk hcount, ok_bind]
      cases DataProto.concat output with
      | error e => rfl
      | ok out => rfl
  | false =>
    have hne : ((range worldSize).map fun i => method i pieces[i]?.toList []).isEmpty
        = false := by
      rw [isEmpty_eq_false_iff, Ne, map_eq_nil_iff, range_eq_nil]
      omega
    rw [hne, length_map, length_range, beq_self_eq_true]
    show DataProtoFuture.get autoPadding (DataProtoFuture.concat _) = _
    rw [get_concat, hmapM]

/-- If the pieces cannot be cut, the call of the future raises. -/
theorem call_future_error (hk : 1 ≤ worldSize)
    (method : Nat → List (DataProto τ ν) → List (String × DataProto τ ν) → Except PyErr (DataProto τ' ν'))
    (hnone : future.dispatchFn = none) (hget : future.get autoPadding = .ok x) {e : PyErr}
    (hpieces : x.chunk autoPadding worldSize = .error e) :
    (funcGenerator autoPadding true worldSize method [.future future] [] >>=
        BatchArg.materialize autoPadding) = .error e := by
  have hfutures : (range worldSize).map (fun i => do
        let piece ← DataProtoFuture.get autoPadding
          { future with dispatchFn := some (i, worldSize) }
        method i [piece] [])
      = (range worldSize).map fun _ => .error e := by simp [get_piece hnone hget, hpieces]
  have hdispatch : dispatchDpComputeArgs autoPadding worldSize [BatchArg.future future] []
      = .ok ⟨[(future.chunk worldSize).map .future], [], none⟩ := rfl
  unfold funcGenerator
  rw [hdispatch, ok_bind, executeAllAsync_future, hfutures]
  obtain ⟨k, rfl⟩ := Nat.exists_eq_add_of_le hk
  rw [Nat.add_comm, range_succ_eq_map]
  rfl

theorem dispatch_of_dvd (hk : 1 ≤ worldSize) (hdvd : worldSize ∣ x.len)
    {split : SplitArgs (DataProto τ ν)}
    (h : dispatchDpComputeDataProto autoPadding worldSize [x] [] = .ok split) :
    ∃ pieces, x.chunk autoPadding worldSize = .ok pieces ∧ split.args = [pieces] ∧
      split.kwargs = [] ∧ split.paddingSize.getD 0 = 0 := by
  have hmod : ¬x.len % worldSize > 0 := by omega
  obtain ⟨⟨state, args⟩, hargs, h⟩ := bind_eq_ok.1 h
  cases h
  unfold paddingAndSplitAll at hargs
  obtain ⟨⟨state, pieces⟩, hpieces, hargs⟩ := bind_eq_ok.1 hargs
  cases hargs
  unfold paddingAndSplitData at hpieces
  by_cases hpad : x.isPaddingEnabled autoPadding = true
  · rw [if_pos hpad] at hpieces
    dsimp only at hpieces
    rw [if_neg (by omega : ¬worldSize = 0), if_neg hmod] at hpieces
    obtain ⟨_, hchunk, hpieces⟩ := bind_eq_ok.1
      (show x.chunk autoPadding worldSize >>= _ = _ from hpieces)
    cases hpieces
    exact ⟨pieces, hchunk, rfl, rfl, rfl⟩
  · rw [if_neg hpad] at hpieces
    obtain ⟨_, hchunk, hpieces⟩ := bind_eq_ok.1 hpieces
    cases hpieces
    exact ⟨pieces, hchunk, rfl, rfl, rfl⟩

/-- A call that needs no padding cuts the data as the workers cut a future. -/
theorem call_data
    {method : Nat → List (DataProto τ ν) → List (String × DataProto τ ν) → Except PyErr (DataProto τ' ν')}
    (hk : 1 ≤ worldSize) {r : DataProto τ' ν'} (hdvd : worldSize ∣ x.len)
    (h : callDpComputeProto autoPadding worldSize method [x] [] = .ok r) :
    ∃ pieces, x.chunk autoPadding worldSize = .ok pieces ∧
      runPieces worldSize method pieces = .ok r := by
  obtain ⟨split, hsplit, h⟩ := bind_eq_ok.1 h
  obtain ⟨pieces, hpieces, hargs, hkwargs, hcount⟩ := dispatch_of_dvd hk hdvd hsplit
  obtain ⟨output, houtput, h⟩ := bind_eq_ok.1 h
  obtain ⟨out, hout, h⟩ := bind_eq_ok.1 h
  rw [hcount] at h
  cases h
  have hworker : ∀ i : Nat, [pieces].filterMap (·[i]?) = pieces[i]?.toList := by grind
  have hlen := length_of_chunk hpieces
  refine ⟨pieces, hpieces, ?_⟩
  unfold executeAll at houtput
  rw [hargs, hkwargs, if_pos (by simp [hlen])] at houtput
  simp only [hworker, filterMap_nil] at houtput
  have hlength : output.length = worldSize := by
    rw [← (forall₂_of_mapM_eq_ok houtput).length_eq, length_range]
  rw [collectDpComputeDataProto_eq hk hlength] at hout
  unfold runPieces
  rw [houtput, ok_bind, hout]

/-- The non-blocking call next to the blocking one, which returns `out`. -/
theorem future_of_blocking (hk : 1 ≤ worldSize)
    {method : Nat → List (DataProto τ ν) → List (String × DataProto τ ν) → Except PyErr (DataProto τ' ν')}
    {args : List (DataProto τ ν)} {kwargs : List (String × DataProto τ ν)} {out : DataProto τ' ν'}
    (h : callDpComputeProto autoPadding worldSize method args kwargs = .ok out) :
    ∃ split output x future,
      dispatchDpComputeDataProto autoPadding worldSize args kwargs = .ok split ∧
      executeAll worldSize method split = .ok output ∧ DataProto.concat output = .ok x ∧
      (if split.paddingSize.getD 0 > 0 then
        x.selectIdxs ((range x.len).take (x.len - split.paddingSize.getD 0))
      else .ok x) = .ok out ∧
      funcGenerator autoPadding false worldSize method (args.map .data)
        (kwargs.map (Prod.map id .data)) = .ok (.future future) ∧
      future.dispatchFn = none ∧ future.get autoPadding = .ok x := by
  obtain ⟨split, hsplit, h⟩ := bind_eq_ok.1 h
  obtain ⟨output, houtput, h⟩ := bind_eq_ok.1 h
  obtain ⟨x, hx, hout⟩ := bind_eq_ok.1 h
  have hexec := houtput
  rw [executeAll_eq] at hexec
  obtain ⟨futures, hfutures, hmapM⟩ := bind_eq_ok.1 hexec
  have hlength : futures.length = worldSize := by
    unfold executeAllAsync at hfutures
    split at hfutures
    · grind
    · cases hfutures
  have hcollect := collectDpComputeDataProto_eq hk
    ((forall₂_of_mapM_eq_ok hmapM).length_eq.symm.trans hlength)
  have hne : futures.isEmpty = false := by grind
  have hcall : funcGenerator autoPadding false worldSize method (args.map .data)
      (kwargs.map (Prod.map id .data)) = .ok (.future (DataProtoFuture.concat futures)) := by
    unfold funcGenerator
    rw [dispatchDpComputeArgs_data, hsplit]
    show (executeAllAsync worldSize (registered autoPadding method) (split.map .data) >>= _) = _
    rw [executeAllAsync_data, hfutures, ok_bind, hne, hlength,
      beq_self_eq_true]
    rfl
  refine ⟨split, output, x, _, hsplit, houtput, hcollect ▸ hx, hout, hcall, rfl, ?_⟩
  rw [get_concat, hmapM, ok_bind, ← hcollect, hx]

end NonBlocking

/-! ## Lemmas: row-wise workers -/

section RowWise

variable {autoPadding : Bool}

variable {d : DataProto τ ν} {k : Nat}

theorem metaInfo_of_new {batch : Option (TensorDict τ)} {nonTensorBatch : Dict (List ν)}
    {metaInfo : Dict PyVal} {r : DataProto τ ν}
    (h : DataProto.new batch nonTensorBatch metaInfo = .ok r) : r.metaInfo = metaInfo := by
  obtain ⟨_, -, h⟩ := bind_eq_ok.1 h
  cases h
  rfl

theorem metaInfo_of_selectIdxs {r : DataProto τ ν} {idxs : List Nat}
    (h : d.selectIdxs idxs = .ok r) : r.metaInfo = d.metaInfo := by
  unfold DataProto.selectIdxs at h
  cases hb : d.batch with
  | none =>
    rw [hb] at h
    dsimp only at h
    split at h
    · exact metaInfo_of_new h
    · cases h
  | some td =>
    rw [hb] at h
    dsimp only at h
    split at h
    · exact metaInfo_of_new h
    · cases h

/-- A batch that could be padded has a `meta_info` that merges with itself. -/
theorem merge_of_padding {padded : DataProto τ ν} {p : Nat} (hp : p ≠ 0)
    (h : d.padding p = .ok padded) :
    ∃ merged, DataProto.mergeMetaInfo [d.metaInfo, d.metaInfo] = .ok merged := by
  unfold DataProto.padding at h
  rw [if_neg hp] at h
  obtain ⟨candidate, hcandidate, h⟩ := bind_eq_ok.1 h
  obtain ⟨part, hpart, h⟩ := bind_eq_ok.1 h
  obtain ⟨paddedDp, hconcat, -⟩ := bind_eq_ok.1 h
  have hmeta : part.metaInfo = d.metaInfo :=
    (metaInfo_of_new hpart).trans (metaInfo_of_selectIdxs hcandidate)
  have hmerge := DataProto.metaInfo_of_concat hconcat
  rw [map_cons, map_singleton, hmeta] at hmerge
  exact ⟨_, hmerge⟩

/-- A batch that could be dispatched can be padded. -/
theorem merge_of_dispatch (hk : 1 ≤ k) (hpad : d.isPaddingEnabled autoPadding = true)
    (hdvd : ¬k ∣ d.len) {split : SplitArgs (DataProto τ ν)}
    (h : dispatchDpComputeDataProto autoPadding k [d] [] = .ok split) :
    ∃ merged, DataProto.mergeMetaInfo [d.metaInfo, d.metaInfo] = .ok merged := by
  have hmod : d.len % k > 0 := Nat.pos_of_ne_zero fun h0 => hdvd (Nat.dvd_of_mod_eq_zero h0)
  have hlt := Nat.mod_lt d.len hk
  unfold dispatchDpComputeDataProto splitArgsKwargsDataProtoWithAutoPadding at h
  obtain ⟨⟨state, args⟩, hargs, -⟩ := bind_eq_ok.1 h
  unfold paddingAndSplitAll at hargs
  obtain ⟨⟨state, pieces⟩, hpieces, -⟩ := bind_eq_ok.1 hargs
  unfold paddingAndSplitData at hpieces
  rw [if_pos hpad] at hpieces
  dsimp only at hpieces
  rw [if_neg (by omega : ¬k = 0), if_pos hmod] at hpieces
  obtain ⟨padded, hpadded, -⟩ := bind_eq_ok.1
    (show d.padding (k - d.len % k) >>= _ = _ from hpieces)
  exact merge_of_padding (by omega) hpadded

/-- A row-wise method: the blocking call returns the rows of the data, the future also has those of
the padding. -/
theorem future_rowFn (f : RowFn τ ν τ' ν') (metaOf : Nat → DataProto τ ν → Dict PyVal)
    {data : DataProto τ ν} (hwf : data.WellFormed) (hn : 1 ≤ data.len)
    (hpad : data.isPaddingEnabled autoPadding = true) (hk : 1 ≤ k) {out : DataProto τ' ν'}
    (h : callDpComputeProto autoPadding k (f.worker metaOf) [data] [] = .ok out) :
    ∃ (padded : DataProto τ ν) (s : Nat) (merged : Dict PyVal) (future : DataProtoFuture τ' ν'),
      padded.len = data.len + paddingCount data.len k ∧
      gatherRows padded.rows (range data.len) = data.rows ∧
      DataProto.mergeMetaInfo ((range k).map fun i =>
        metaOf i (padded.gather (range' (i * s) s))) = .ok merged ∧
      out = f.mapRows data.rows merged ∧
      funcGenerator autoPadding false k (f.worker metaOf) [.data data] [] = .ok (.future future) ∧
      future.dispatchFn = none ∧ future.get autoPadding = .ok (f.mapRows padded.rows merged) := by
  obtain ⟨split, output, x, future, hsplit, houtput, hx, hout, hcall, hnone, hget⟩ :=
    future_of_blocking hk h
  obtain ⟨padded, s, hpwf, hplen, hrows, hpn, hsplit'⟩ :=
    dispatchDpComputeDataProto_eq hwf hpad hk hn fun hdvd => merge_of_dispatch hk hpad hdvd hsplit
  have heq : split = _ := Except.ok.inj (hsplit.symm.trans hsplit')
  subst heq
  have hexec := executeAll_worker f metaOf
    ((range k).map fun i => padded.gather (range' (i * s) s))
    (some (paddingCount data.len k))
  rw [length_map, length_range, mapIdx_map_range] at hexec
  have hcat := Except.ok.inj (houtput.symm.trans hexec)
  subst hcat
  have hmerge := DataProto.metaInfo_of_concat hx
  rw [map_map] at hmerge
  have hxeq : x = f.mapRows padded.rows x.metaInfo :=
    Except.ok.inj (hx.symm.trans (concat_map_mapRows f hpwf hk hplen
      (fun i => metaOf i (padded.gather (range' (i * s) s))) hmerge))
  refine ⟨padded, s, x.metaInfo, future, hpn, hrows, hmerge, ?_, hcall, hnone, hxeq ▸ hget⟩
  have hlen : padded.rows.length = data.len + paddingCount data.len k := by
    rw [DataProto.rows, length_map, length_range, hpn]
  rw [Option.getD_some] at hout
  split at hout
  · rw [hxeq, selectIdxs_mapRows f _ _ hlen, hrows] at hout
    exact (Except.ok.inj hout).symm
  case isFalse hp =>
    have hall : gatherRows padded.rows (range data.len) = padded.rows := by
      rw [show data.len = padded.rows.length by omega, gatherRows_range]
    rw [← hrows, hall, ← hxeq]
    exact (Except.ok.inj hout).symm

/-- A batch that is not padded has to be of the right size. -/
theorem isPaddingEnabled_of_call
    {method : Nat → List (DataProto τ ν) → List (String × DataProto τ ν) → Except PyErr (DataProto τ' ν')}
    {r : DataProto τ' ν'} (hdvd : ¬k ∣ d.len)
    (h : callDpComputeProto autoPadding k method [d] [] = .ok r) :
    d.isPaddingEnabled autoPadding = true := by
  by_contra hpad
  obtain ⟨split, hsplit, -⟩ := bind_eq_ok.1 h
  obtain ⟨⟨state, args⟩, hargs, -⟩ := bind_eq_ok.1 hsplit
  obtain ⟨⟨state, pieces⟩, hpieces, -⟩ := bind_eq_ok.1 hargs
  unfold paddingAndSplitData at hpieces
  rw [if_neg hpad] at hpieces
  obtain ⟨pieces, hchunk, -⟩ := bind_eq_ok.1 hpieces
  unfold DataProto.chunk at hchunk
  by_cases hzero : k = 0
  · rw [if_pos hzero] at hchunk
    cases hchunk
  rw [if_neg hzero] at hchunk
  obtain ⟨_, hassert, -⟩ := bind_eq_ok.1 hchunk
  rw [pyAssert_eq_ok, Bool.eq_false_iff.2 hpad, Bool.false_or, beq_iff_eq] at hassert
  exact hdvd (Nat.dvd_of_mod_eq_zero hassert)

variable (g : RowFn τ ν τ' ν') (metas : Nat → Dict PyVal)

/-- A row-wise method on the chunks of a batch. -/
theorem runPieces_rowFn (hwf : d.WellFormed) (hk : 1 ≤ k) (hlen : (d.chunkPieces k).length = k)
    {merged : Dict PyVal} (hm : DataProto.mergeMetaInfo ((range k).map metas) = .ok merged) :
    runPieces k (g.worker fun i _ => metas i) ((d.chunkPieces k).map d.gather)
      = .ok (g.mapRows d.rows merged) := by
  have hpiece : ∀ i ∈ range k,
      g.worker (fun i _ => metas i) i ((d.chunkPieces k).map d.gather)[i]?.toList []
        = .ok (g.mapRows (d.gather ((d.chunkPieces k).getD i [])).rows (metas i)) := by
    intro i hi
    rw [mem_range, ← hlen] at hi
    rw [getElem?_map, getD_eq_getElem?_getD, getElem?_eq_getElem hi]
    rfl
  have hall : (range k).map (fun i => (d.chunkPieces k).getD i []) = d.chunkPieces k := by
    have hmap := map_getD_range (d.chunkPieces k) []
    rwa [hlen] at hmap
  have hfst : ((range k).map fun i => ((d.chunkPieces k).getD i [], metas i)).flatMap Prod.fst
      = range d.len := by
    rw [flatMap_map, ← DataProto.flatten_chunkPieces d hk]
    exact congrArg flatten hall
  have hsnd : ((range k).map fun i => ((d.chunkPieces k).getD i [], metas i)).map Prod.snd
      = (range k).map metas := by
    rw [map_map]
    rfl
  have hne : ((range k).map fun i => ((d.chunkPieces k).getD i [], metas i)) ≠ [] := by
    rw [Ne, map_eq_nil_iff, range_eq_nil]
    omega
  have hin : ∀ p ∈ (range k).map fun i => ((d.chunkPieces k).getD i [], metas i),
      ∀ r ∈ p.1, r < d.len := by
    intro p hp
    obtain ⟨i, hi, rfl⟩ := mem_map.1 hp
    rw [mem_range, ← hlen] at hi
    rw [getD_eq_getElem?_getD, getElem?_eq_getElem hi]
    exact DataProto.lt_of_mem_chunkPieces hk (getElem_mem hi)
  have hcat := concat_mapRows_gather g hwf _ hne hin (hsnd ▸ hm)
  have hlenrows : d.rows.length = d.len := by
    rw [DataProto.rows, length_map, length_range]
  rw [hfst, ← hlenrows, gatherRows_range, map_map] at hcat
  unfold runPieces
  rw [mapM_eq_ok_map _ _ _ hpiece]
  exact hcat

/-- A row-wise method on a future that has the rows of `out`. -/
theorem call_future_rowFn (hk : 1 ≤ k) {future : DataProtoFuture τ ν} {out : DataProto τ ν}
    {r : DataProto τ' ν'} (hwf : out.WellFormed) (hn : 1 ≤ out.len)
    (hnone : future.dispatchFn = none) (hget : future.get autoPadding = .ok out)
    (hr : callDpComputeProto autoPadding k (g.worker fun i _ => metas i) [out] [] = .ok r) :
    (∀ blocking, (funcGenerator autoPadding blocking k (g.worker fun i _ => metas i)
        [.future future] [] >>= BatchArg.materialize autoPadding) = .ok r) ↔
      out.batch = none ∨ (DataProto.chunkSizes out.len k).length = k := by
  by_cases hdvd : k ∣ out.len
  · obtain ⟨pieces, hpieces, hrun⟩ := call_data hk hdvd hr
    obtain ⟨s, hs⟩ := hdvd
    have hs1 : 1 ≤ s := by grind
    have hfits : (DataProto.chunkSizes out.len k).length = k := by
      rw [hs, DataProto.chunkSizes_mul hk hs1, length_replicate]
    refine ⟨fun _ => Or.inr hfits, fun _ blocking => ?_⟩
    rw [call_future blocking hk _ hnone hget hpieces, hrun]
  · have hpad := isPaddingEnabled_of_call hdvd hr
    constructor
    · intro hcalls
      by_contra hnot
      rw [not_or] at hnot
      obtain ⟨hbatch, hfits⟩ := hnot
      obtain ⟨td, hb⟩ := Option.ne_none_iff_exists'.1 hbatch
      cases hchunk : out.chunk autoPadding k with
      | ok pieces => exact DataProto.chunk_ne_ok hb hk hfits hchunk
      | error e =>
        have hraise := call_future_error hk (g.worker fun i _ => metas i) hnone hget hchunk
        rw [hcalls true] at hraise
        cases hraise
    · intro hfits blocking
      have hlen : (out.chunkPieces k).length = k := by
        unfold DataProto.chunkPieces
        cases hb : out.batch with
        | none =>
          unfold DataProto.arraySplitSizes
          rw [DataProto.length_pieceIdxs, length_map, length_range]
        | some td =>
          rw [DataProto.length_pieceIdxs, ← DataProto.len_of_batch hb]
          exact hfits.resolve_left fun hnone => by grind
      obtain ⟨_, _, merged, _, -, -, hmerge, hreq, -⟩ :=
        future_rowFn g (fun i _ => metas i) hwf hn hpad hk hr
      rw [call_future blocking hk _ hnone hget
        (DataProto.chunk_eq_chunkPieces hwf hk (by rw [hpad, Bool.true_or]) hlen), runPieces_rowFn g metas hwf hk hlen hmerge,
        hreq]

end RowWise

/-! ## Top theorem -/

section Top

variable {τ'' ν'' : Type}

/-- **Futures.**  A non-blocking call with auto padding, and a further call that its future is
passed to, agree with blocking calls exactly if the number of workers divides the number of rows
and the workers of the further call can cut the result into one piece for each. -/
theorem future_eq_blocking_iff (autoPadding : Bool) (f : RowFn τ ν τ' ν')
    (metaOf : Nat → DataProto τ ν → Dict PyVal) (g : RowFn τ' ν' τ'' ν'')
    (metas : Nat → Dict PyVal) (data : DataProto τ ν) (hwf : data.WellFormed) (hn : 1 ≤ data.len)
    (hpad : data.isPaddingEnabled autoPadding = true) (k k' : Nat) (hk : 1 ≤ k) (hk' : 1 ≤ k')
    (out : DataProto τ' ν') (r : DataProto τ'' ν'')
    (hout : funcGenerator autoPadding true k (f.worker metaOf) [.data data] []
      = .ok (.data out))
    (hr : funcGenerator autoPadding true k' (g.worker fun i _ => metas i) [.data out] []
      = .ok (.data r)) :
    (∃ future,
      funcGenerator autoPadding false k (f.worker metaOf) [.data data] [] = .ok (.future future) ∧
      future.get autoPadding = .ok out ∧
      ∀ blocking, (funcGenerator autoPadding blocking k' (g.worker fun i _ => metas i)
        [.future future] [] >>= BatchArg.materialize autoPadding) = .ok r) ↔
      (f.tensor = none ∧ f.nonTensor.items = []) ∨
        (k ∣ data.len ∧ (f.tensor = none ∨ (DataProto.chunkSizes data.len k').length = k')) := by
  have hcall : callDpComputeProto autoPadding k (f.worker metaOf) [data] [] = .ok out := by
    obtain ⟨out', hout', heq⟩ := except_map_eq_ok.1 ((funcGenerator_data k _ [data] []).symm.trans hout)
    cases heq
    exact hout'
  have hcall' : callDpComputeProto autoPadding k' (g.worker fun i _ => metas i) [out] []
      = .ok r := by
    obtain ⟨r', hr', heq⟩ := except_map_eq_ok.1 ((funcGenerator_data k' _ [out] []).symm.trans hr)
    cases heq
    exact hr'
  obtain ⟨padded, s, merged, future, hpn, hrows, -, houteq, hfuture, hnone, hget⟩ :=
    future_rowFn f metaOf hwf hn hpad hk hcall
  have hlenrows : padded.rows.length = data.len + paddingCount data.len k := by
    rw [DataProto.rows, length_map, length_range, hpn]
  have hdatarows : data.rows.length = data.len := by
    rw [DataProto.rows, length_map, length_range]
  have houtwf : out.WellFormed := by
    rw [houteq]
    exact f.wellFormed_mapRows _ _
  by_cases hcols : f.tensor ≠ none ∨ f.nonTensor.items ≠ []
  · have houtlen : out.len = data.len := by
      rw [houteq, f.len_mapRows _ _ hcols, hdatarows]
    have hbatch : out.batch = none ↔ f.tensor = none := by
      rw [houteq]
      exact Option.map_eq_none_iff
    have hcolumns : ¬(f.tensor = none ∧ f.nonTensor.items = []) := by grind
    rw [or_iff_right hcolumns, ← hbatch, ← houtlen]
    constructor
    · rintro ⟨future', hfuture', hget', hcalls⟩
      rw [hfuture] at hfuture'
      cases hfuture'
      -- the future has the padding rows
      have hcount : paddingCount data.len k = 0 := by
        have hlen := congrArg DataProto.len (Except.ok.inj (hget.symm.trans hget'))
        rw [f.len_mapRows _ _ hcols] at hlen
        omega
      refine ⟨?_, (call_future_rowFn g metas hk' houtwf (houtlen ▸ hn) hnone hget' hcall').1 hcalls⟩
      have hdvd := dvd_add_paddingCount (n := data.len) hk
      rwa [hcount, ← houtlen] at hdvd
    · rintro ⟨hdvd, hfits⟩
      have hcount : paddingCount data.len k = 0 := by
        rw [houtlen] at hdvd
        rw [paddingCount, Nat.mod_eq_zero_of_dvd hdvd]
        rfl
      have hall : gatherRows padded.rows (List.range data.len) = padded.rows := by
        rw [show data.len = padded.rows.length by omega, gatherRows_range]
      rw [← hall, hrows, ← houteq] at hget
      exact ⟨future, hfuture, hget,
        (call_future_rowFn g metas hk' houtwf (houtlen ▸ hn) hnone hget hcall').2 hfits⟩
  · rw [not_or, not_not, not_not] at hcols
    rw [f.mapRows_columnless _ _ hcols.1 hcols.2 data.rows, ← houteq] at hget
    have hzero : out.len = 0 := by
      simp [RowFn.mapRows, DataProto.len, houteq, hcols.1, hcols.2]
    obtain ⟨pieces, hpieces, hrun⟩ := call_data hk' (hzero ▸ Nat.dvd_zero k') hcall'
    refine ⟨fun _ => Or.inl hcols, fun _ => ⟨future, hfuture, hget, fun blocking => ?_⟩⟩
    rw [call_future blocking hk' _ hnone hget hpieces, hrun]

/-- Three workers, and two in the further call. -/
theorem future_eq_blocking_three :
    ∃ out r, funcGenerator true true 3 (plusOne.worker fun i _ => oneMetric "loss" i)
        [.data threeRows] [] = .ok (.data out) ∧
      ∃ future,
        funcGenerator true false 3 (plusOne.worker fun i _ => oneMetric "loss" i)
          [.data threeRows] [] = .ok (.future future) ∧
        future.get true = .ok out ∧
        ∀ blocking, (funcGenerator true blocking 2 (plusOne.worker fun i _ => oneMetric "loss" i)
          [.future future] [] >>= BatchArg.materialize true) = .ok r :=
  ⟨_, _, rfl, (future_eq_blocking_iff true plusOne (fun i _ => oneMetric "loss" i) plusOne
    (oneMetric "loss") threeRows (by decide) (by decide) rfl 3 2 (by decide) (by decide) _ _ rfl
    rfl).mpr (Or.inr ⟨by decide, Or.inr (by decide)⟩)⟩

/-- Two workers: the row that was added for the second one is in the future, and not in the result
of the blocking call. -/
theorem future_ne_blocking_two :
    ∃ out future x, funcGenerator false true 2 (plusOne.worker fun i _ => oneMetric "loss" i)
        [.data threeRows] [] = .ok (.data out) ∧
      funcGenerator false false 2 (plusOne.worker fun i _ => oneMetric "loss" i)
        [.data threeRows] [] = .ok (.future future) ∧
      future.get false = .ok x ∧ out.len = 3 ∧ x.len = 4 :=
  ⟨_, _, _, rfl, rfl, rfl, rfl, rfl⟩

end Top

end Verl
