import Verl.Lib.Slice
import Verl.Lib.StepSystem
import Verl.Protocol.Operations

/-! # One row map for all columns of a `DataProto` (`verl/protocol.py`)

Every operation moves tensor columns and numpy columns by code of its own.  A result is sound
(`Traced`) when all its columns have one length and, for each operand, all columns that are taken
from it read their rows by one and the same map (`RowMaps`).

* `sound_of_run`: one lemma for each operation, put together.
* `pool_sound`: the DataProtos of a run, when no `uint8` index array is read by both torch and
  numpy and no `concat` without tensor columns meets an element that lacks some of the first
  one's columns. -/

namespace Verl.DataProto

open List Dict

variable {τ ν : Type}

/-! ## Row maps -/

def tensorColumns (d : DataProto τ ν) : List (String × List τ) :=
  match d.batch with
  | none => []
  | some td => td.columns.items

/-- Row `i` of a tensor column. -/
def tensorAt (d : DataProto τ ν) (key : String) (i : Nat) : Option τ :=
  (d.batch.bind fun td => td.columns.get? key).bind fun rows => rows[i]?

/-- Row `i` of a numpy column. -/
def nonTensorAt (d : DataProto τ ν) (key : String) (i : Nat) : Option ν :=
  (d.nonTensorBatch.get? key).bind fun rows => rows[i]?

/-- The maps say for each row of `r` an operand and a row of it; two maps share no operand, so
all columns that come from one operand come by one map. -/
structure RowMaps (operands : List (DataProto τ ν)) (r : DataProto τ ν)
    (maps : List (List (Nat × Nat))) : Prop where
  length : ∀ m ∈ maps, m.length = r.len
  tensor : ∀ c ∈ r.tensorColumns, ∃ m ∈ maps,
    c.2.map some = m.map fun p => (operands[p.1]?).bind fun d => d.tensorAt c.1 p.2
  nonTensor : ∀ c ∈ r.nonTensorBatch.items, ∃ m ∈ maps,
    c.2.map some = m.map fun p => (operands[p.1]?).bind fun d => d.nonTensorAt c.1 p.2
  disjoint : maps.Pairwise fun m m' => ∀ p ∈ m, ∀ q ∈ m', p.1 ≠ q.1

structure Traced (operands : List (DataProto τ ν)) (r : DataProto τ ν) : Prop where
  wellFormed : r.WellFormed
  rowMaps : ∃ maps, RowMaps operands r maps

variable {α β : Type} {n chunks : Nat} {d r : DataProto τ ν} {data : List (DataProto τ ν)}
  {td : TensorDict τ} {idxs : List Nat} {rows : List α}

theorem length_of_mem_tensorColumns {c : String × List τ}
    (hc : c ∈ d.tensorColumns) : c.2.length = d.len := by
  unfold tensorColumns at hc
  cases hb : d.batch with
  | none =>
    rw [hb] at hc
    cases hc
  | some td =>
    rw [hb] at hc
    rw [len_of_batch hb]
    exact td.rows_eq c hc

theorem tensorAt_of_mem {c : String × List τ} (hc : c ∈ d.tensorColumns)
    (i : Nat) : d.tensorAt c.1 i = c.2[i]? := by
  unfold tensorColumns at hc
  unfold tensorAt
  cases hb : d.batch with
  | none =>
    rw [hb] at hc
    cases hc
  | some td =>
    rw [hb] at hc
    rw [Option.bind_some, get?_eq_some hc, Option.bind_some]

theorem nonTensorAt_of_mem {c : String × List ν}
    (hc : c ∈ d.nonTensorBatch.items) (i : Nat) : d.nonTensorAt c.1 i = c.2[i]? := by
  unfold nonTensorAt
  rw [get?_eq_some hc, Option.bind_some]

theorem rowMaps_nil (operands : List (DataProto τ ν))
    (htensor : r.tensorColumns = []) (hnonTensor : r.nonTensorBatch.items = []) :
    RowMaps operands r [] where
  length := by simp
  tensor := by simp [htensor]
  nonTensor := by simp [hnonTensor]
  disjoint := .nil

/-! ## Results of one operand -/

/-- The columns are gathers of columns of the same name. -/
def Gathers {α : Type} (idxs : List Nat) (columns results : List (String × List α)) : Prop :=
  ∀ c ∈ results, ∃ rows, (c.1, rows) ∈ columns ∧ c.2 = gatherRows rows idxs ∧
    ∀ i ∈ idxs, i < rows.length

theorem Gathers.length_eq {columns results : List (String × List α)}
    (h : Gathers idxs columns results) {c : String × List α} (hc : c ∈ results) :
    c.2.length = idxs.length := by
  obtain ⟨rows, -, hrows, hlt⟩ := h c hc
  rw [hrows, length_gatherRows_of_lt hlt]

theorem map_some_gatherRows (h : ∀ i ∈ idxs, i < rows.length) :
    (gatherRows rows idxs).map some = idxs.map fun i => rows[i]? := by
  induction idxs with
  | nil => rfl
  | cons i idxs ih =>
    have hi := h i mem_cons_self
    have hrest := ih fun j hj => h j (mem_cons_of_mem _ hj)
    unfold gatherRows at *
    rw [filterMap_cons_some (getElem?_eq_getElem hi), map_cons, map_cons, hrest,
      getElem?_eq_getElem hi]

/-- Without tensor columns the constructor checks nothing, and the numpy columns must be known to
have one length. -/
theorem wellFormed_of_checked (hchecked : r.checkConsistency = .ok ())
    (hlen : ∀ c ∈ r.nonTensorBatch.items, c.2.length = n) : r.WellFormed := by
  intro c hc
  cases hb : r.batch with
  | some td =>
    unfold checkConsistency at hchecked
    rw [hb] at hchecked
    have hbatch := pyAssert_eq_ok.1 (forM_eq_ok_iff.1 hchecked c hc)
    rw [len_of_batch hb]
    exact beq_iff_eq.1 hbatch
  | none =>
    unfold len
    rw [hb]
    cases hitems : r.nonTensorBatch.items with
    | nil =>
      rw [hitems] at hc
      cases hc
    | cons first rest =>
      have hfirst : first ∈ r.nonTensorBatch.items := by grind
      rw [hlen c hc]
      exact (hlen first hfirst).symm

/-- The columns of `r` are gathers of `d`'s by one list of rows, and the constructor's check has
been made. -/
theorem traced_of_gathered (htensor : Gathers idxs d.tensorColumns r.tensorColumns)
    (hnonTensor : Gathers idxs d.nonTensorBatch.items r.nonTensorBatch.items)
    (hchecked : r.checkConsistency = .ok ()) : Traced [d] r := by
  have hwf := wellFormed_of_checked hchecked fun c => hnonTensor.length_eq
  refine ⟨hwf, ?_⟩
  by_cases hcolumns : r.tensorColumns = [] ∧ r.nonTensorBatch.items = []
  · exact ⟨[], rowMaps_nil _ hcolumns.1 hcolumns.2⟩
  · have hlen : idxs.length = r.len := by
      rcases not_and_or.1 hcolumns with hne | hne
      · obtain ⟨c, hc⟩ := exists_mem_of_ne_nil _ hne
        rw [← htensor.length_eq hc, length_of_mem_tensorColumns hc]
      · obtain ⟨c, hc⟩ := exists_mem_of_ne_nil _ hne
        rw [← hnonTensor.length_eq hc, hwf c hc]
    refine ⟨[idxs.map fun i => (0, i)], ?_, ?_, ?_, pairwise_singleton _ _⟩
    · grind
    · intro c hc
      obtain ⟨rows, hrows, hgather, hlt⟩ := htensor c hc
      refine ⟨_, mem_singleton_self _, ?_⟩
      rw [hgather, map_some_gatherRows hlt, map_map]
      apply map_congr_left
      intro i _
      exact (tensorAt_of_mem hrows i).symm
    · intro c hc
      obtain ⟨rows, hrows, hgather, hlt⟩ := hnonTensor c hc
      refine ⟨_, mem_singleton_self _, ?_⟩
      rw [hgather, map_some_gatherRows hlt, map_map]
      apply map_congr_left
      intro i _
      exact (nonTensorAt_of_mem hrows i).symm

theorem new_eq_ok {batch : Option (TensorDict τ)} {nonTensorBatch : Dict (List ν)}
    {metaInfo : Dict PyVal} (h : new batch nonTensorBatch metaInfo = .ok r) :
    r.batch = batch ∧ r.nonTensorBatch = nonTensorBatch ∧ r.checkConsistency = .ok () := by
  obtain ⟨u, hcheck, h⟩ := bind_eq_ok.1 h
  cases h
  exact ⟨rfl, rfl, hcheck⟩

theorem columns_of_new {columns : Dict (List τ)} {batchSize : Nat}
    (h : TensorDict.new columns batchSize = .ok td) : td.columns = columns := by
  unfold TensorDict.new at h
  split at h
  · cases h
    rfl
  · cases h

theorem gathers_of_mapValsM {columns results : Dict (List α)}
    {f : List α → Except PyErr (List α)} (h : columns.mapValsM f = .ok results)
    (hlen : ∀ c ∈ columns.items, c.2.length = n)
    (hf : columns.items ≠ [] → ∀ rows v, rows.length = n → f rows = .ok v →
      v = gatherRows rows idxs ∧ ∀ i ∈ idxs, i < n) : Gathers idxs columns.items results.items := by
  intro c hc
  obtain ⟨p, hp, hkey, hval⟩ := exists_of_mem_mapValsM h hc
  obtain ⟨hgather, hlt⟩ := hf (ne_nil_of_mem hp) p.2 c.2 (hlen p hp) hval
  exact ⟨p.2, by rw [hkey]; exact hp, hgather, by rw [hlen p hp]; exact hlt⟩

theorem gathers_of_mapVals {columns : Dict (List α)} {g : List α → List α}
    (hlen : ∀ c ∈ columns.items, c.2.length = n)
    (hg : ∀ rows, rows.length = n → g rows = gatherRows rows idxs) (hlt : ∀ i ∈ idxs, i < n) :
    Gathers idxs columns.items (columns.mapVals fun _ => g).items := by
  intro c hc
  obtain ⟨p, hp, rfl⟩ := mem_map.1 hc
  exact ⟨p.2, hp, hg p.2 (hlen p hp), by rw [hlen p hp]; exact hlt⟩

/-- A step on the tensor columns that gathers each of them. -/
theorem gathers_of_onBatch {f : TensorDict τ → Except PyErr (TensorDict τ)}
    (h : onBatch d.batch f = .ok r.batch)
    (hf : ∀ td td', d.batch = some td → f td = .ok td' →
      Gathers idxs td.columns.items td'.columns.items) :
    Gathers idxs d.tensorColumns r.tensorColumns := by
  unfold tensorColumns
  cases hb : d.batch with
  | none =>
    rw [hb] at h
    have hr : r.batch = none := (Except.ok.inj h).symm
    rw [hr]
    intro c hc
    cases hc
  | some td =>
    rw [hb] at h
    obtain ⟨td', htd', hr⟩ := except_map_eq_ok.1 h
    rw [← hr]
    exact hf td td' hb htd'

/-! ### The operations -/

theorem columns_select {td' : TensorDict τ} {keys : List String}
    (h : td.select keys = .ok td') : ∀ c ∈ td'.columns.items, c ∈ td.columns.items := by
  unfold TensorDict.select at h
  split at h
  · cases h
  · cases h
    intro c hc
    exact (mem_filter.1 hc).1

theorem tensorColumns_selectBatch {batchKeys : Option (List String)}
    (h : selectBatch d.batch batchKeys = .ok r.batch) :
    ∀ c ∈ r.tensorColumns, c ∈ d.tensorColumns := by
  unfold tensorColumns
  cases batchKeys with
  | none =>
    have hr : d.batch = r.batch := Except.ok.inj h
    rw [hr]
    exact fun c hc => hc
  | some keys =>
    cases hb : d.batch with
    | none =>
      rw [hb] at h
      cases h
    | some td =>
      rw [hb] at h
      obtain ⟨td', htd', hr⟩ := except_map_eq_ok.1 h
      rw [← hr]
      exact columns_select htd'

theorem mem_selectKeys {d : Dict β} {keys : Option (List String)} {c : String × β}
    (h : c ∈ (selectKeys d keys).items) : c ∈ d.items := by
  cases keys with
  | none => exact h
  | some keys => exact (mem_filter.1 h).1

theorem gathers_range {columns results : List (String × List α)}
    (hlen : ∀ c ∈ columns, c.2.length = n) (hsub : ∀ c ∈ results, c ∈ columns) :
    Gathers (range n) columns results := by
  intro c hc
  have hc' := hlen c (hsub c hc)
  refine ⟨c.2, hsub c hc, ?_, ?_⟩
  · rw [← hc', gatherRows_range]
  · grind

theorem traced_select (hwf : d.WellFormed)
    {batchKeys nonTensorBatchKeys metaInfoKeys : Option (List String)}
    (h : d.select batchKeys nonTensorBatchKeys metaInfoKeys = .ok r) : Traced [d] r := by
  obtain ⟨batch, hbatch, h⟩ := bind_eq_ok.1 h
  obtain ⟨rfl, hnonTensor, hcheck⟩ := new_eq_ok h
  apply traced_of_gathered (gathers_range (fun c => length_of_mem_tensorColumns)
    (tensorColumns_selectBatch hbatch)) (gathers_range hwf ?_) hcheck
  intro c hc
  rw [hnonTensor] at hc
  exact mem_selectKeys hc

/-- An operation that goes over the columns, each of `n` rows, with a step that gathers the rows
`idxs`. -/
theorem traced_of_columns (hwf : d.WellFormed) (idxs : List Nat)
    {onTensors : TensorDict τ → Except PyErr (TensorDict τ)}
    {onArray : List ν → Except PyErr (List ν)} {nonTensorBatch : Dict (List ν)}
    {metaInfo : Dict PyVal} {batch : Option (TensorDict τ)}
    (hbatch : onBatch d.batch onTensors = .ok batch)
    (harrays : d.nonTensorBatch.mapValsM onArray = .ok nonTensorBatch)
    (hr : new batch nonTensorBatch metaInfo = .ok r)
    (htensor : ∀ td td', d.batch = some td → onTensors td = .ok td' →
      Gathers idxs td.columns.items td'.columns.items)
    (harray : d.nonTensorBatch.items ≠ [] → ∀ rows v, rows.length = d.len → onArray rows = .ok v →
      v = gatherRows rows idxs ∧ ∀ i ∈ idxs, i < d.len) : Traced [d] r := by
  obtain ⟨rfl, rfl, hcheck⟩ := new_eq_ok hr
  exact traced_of_gathered (gathers_of_onBatch hbatch htensor)
    (gathers_of_mapValsM harrays hwf harray) hcheck

theorem traced_slice (hwf : d.WellFormed) {start stop step : Option Int}
    (h : d.slice start stop step = .ok r) : Traced [d] r := by
  unfold slice at h
  generalize step.getD 1 = step at h
  obtain ⟨batch, hbatch, h⟩ := bind_eq_ok.1 h
  obtain ⟨nonTensorBatch, harrays, h⟩ := bind_eq_ok.1 h
  apply traced_of_columns hwf (sliceIdxs d.len start stop step) hbatch harrays h
  · intro td td' hb htd
    have hsize : td.batchSize = d.len := (len_of_batch hb).symm
    by_cases hstep : step ≤ 0
    · grind
    · rw [if_neg hstep] at htd
      cases htd
      rw [hsize]
      exact gathers_of_mapVals td.rows_eq (fun _ _ => rfl)
        (by rw [hsize]; exact lt_of_mem_sliceIdxs (by omega))
  · intro _ rows v hlen hv
    by_cases hstep : step = 0
    · grind
    · rw [if_neg hstep] at hv
      cases hv
      rw [hlen]
      exact ⟨rfl, lt_of_mem_sliceIdxs hstep⟩

theorem lt_of_mem_maskRows {flags : List Bool}
    (h : IndexArray.maskRows n flags = .ok idxs) : ∀ i ∈ idxs, i < n := by
  unfold IndexArray.maskRows at h
  split at h
  · grind
  · cases h

theorem lt_of_mem_mapM_pyIndex {ks : List Int}
    (h : ks.mapM (pyIndex n) = .ok idxs) : ∀ i ∈ idxs, i < n := by
  have hpairs := forall₂_of_mapM_eq_ok h
  clear h
  induction hpairs with
  | nil => simp
  | cons hk _ ih => exact forall_mem_cons.2 ⟨pyIndex_lt hk, ih⟩

/-- Torch and numpy read the index array alike. -/
def PlainIndices : IndexArray → Prop
  | .ints _ => True
  | .mask _ => True
  | .uint8 _ => False

theorem arrayRows_eq_tensorRows {idxs : IndexArray} (h : PlainIndices idxs) (n : Nat) :
    idxs.arrayRows n = idxs.tensorRows n := by
  cases idxs with
  | ints ks => rfl
  | mask flags => rfl
  | uint8 bytes => exact h.elim

theorem lt_of_mem_tensorRows {idxs : IndexArray} {rows : List Nat}
    (h : idxs.tensorRows n = .ok rows) : ∀ i ∈ rows, i < n := by
  cases idxs with
  | ints ks => exact lt_of_mem_mapM_pyIndex h
  | mask flags => exact lt_of_mem_maskRows h
  | uint8 bytes => exact lt_of_mem_maskRows h

theorem lt_of_mem_arrayRows {idxs : IndexArray} {rows : List Nat}
    (h : idxs.arrayRows n = .ok rows) : ∀ i ∈ rows, i < n := by
  cases idxs with
  | ints ks => exact lt_of_mem_mapM_pyIndex h
  | mask flags => exact lt_of_mem_maskRows h
  | uint8 bytes =>
    have hints : (bytes.map fun b => (b.toNat : Int)).mapM (pyIndex n) = .ok rows := by
      rw [mapM_map]
      exact h
    exact lt_of_mem_mapM_pyIndex hints

/-- The step of an operation whose rows are known only after a check: they are the same for all
columns of `n` rows. -/
theorem gather_of_checked {checked : Except PyErr (List Nat)} {f : List α → Except PyErr (List α)}
    (hf : ∀ rows, rows.length = n → f rows = checked.map (gatherRows rows))
    (hlt : ∀ idxs, checked = .ok idxs → ∀ i ∈ idxs, i < n) {v : List α} (hlen : rows.length = n)
    (hv : f rows = .ok v) :
    v = gatherRows rows (checked.toOption.getD []) ∧
      ∀ i ∈ checked.toOption.getD [], i < n := by
  rw [hf rows hlen] at hv
  obtain ⟨idxs, hidxs, rfl⟩ := except_map_eq_ok.1 hv
  rw [hidxs]
  exact ⟨rfl, hlt idxs hidxs⟩

/-- The same for the columns of a `TensorDict` that is made anew. -/
theorem gathers_of_checked {batchSize : Nat} {checked : Except PyErr (List Nat)}
    {f : List τ → Except PyErr (List τ)}
    (hf : ∀ rows, rows.length = n → f rows = checked.map (gatherRows rows))
    (hlt : ∀ idxs, checked = .ok idxs → ∀ i ∈ idxs, i < n) {td' : TensorDict τ}
    (hsize : td.batchSize = n)
    (h : (td.columns.mapValsM f >>= fun columns => TensorDict.new columns batchSize) = .ok td') :
    Gathers (checked.toOption.getD []) td.columns.items td'.columns.items := by
  obtain ⟨columns, hcolumns, hnew⟩ := bind_eq_ok.1 h
  rw [columns_of_new hnew]
  exact gathers_of_mapValsM hcolumns (by rw [← hsize]; exact td.rows_eq)
    fun _ rows v hlen hv => gather_of_checked hf hlt hlen hv

/-- No column is read by torch while another one is read by numpy in another way. -/
def ReadAlike (idxs : IndexArray) (d : DataProto τ ν) : Prop :=
  PlainIndices idxs ∨ d.batch = none ∨ d.nonTensorBatch.items = []

/-- One check for all columns there are. -/
theorem ReadAlike.checked {idxs : IndexArray} (h : ReadAlike idxs d) :
    ∃ checked : Except PyErr (List Nat),
      (d.batch ≠ none → checked = idxs.tensorRows d.len) ∧
      (d.nonTensorBatch.items ≠ [] → checked = idxs.arrayRows d.len) ∧
      ∀ rows, checked = .ok rows → ∀ i ∈ rows, i < d.len := by
  rcases h with hplain | hbatch | hitems
  · exact ⟨idxs.tensorRows d.len, fun _ => rfl,
      fun _ => (arrayRows_eq_tensorRows hplain d.len).symm, fun rows => lt_of_mem_tensorRows⟩
  · exact ⟨idxs.arrayRows d.len, fun hne => absurd hbatch hne, fun _ => rfl,
      fun rows => lt_of_mem_arrayRows⟩
  · exact ⟨idxs.tensorRows d.len, fun _ => rfl, fun hne => absurd hitems hne,
      fun rows => lt_of_mem_tensorRows⟩

theorem traced_selectIdxsAt (hwf : d.WellFormed) {idxs : IndexArray}
    (halike : ReadAlike idxs d) (h : d.selectIdxsAt idxs = .ok r) : Traced [d] r := by
  obtain ⟨batch, hbatch, h⟩ := bind_eq_ok.1 h
  obtain ⟨nonTensorBatch, harrays, h⟩ := bind_eq_ok.1 h
  obtain ⟨checked, htensors, harray, hlt⟩ := halike.checked
  apply traced_of_columns hwf (checked.toOption.getD []) hbatch harrays h
  · intro td td' hb htd
    have hsize : td.batchSize = d.len := (len_of_batch hb).symm
    have hchecked := htensors (by rw [hb]; exact Option.some_ne_none td)
    exact gathers_of_checked (fun rows hlen => by rw [hlen, hchecked]) hlt hsize htd
  · intro hne rows v hlen hv
    exact gather_of_checked (f := fun rows => (idxs.arrayRows rows.length).map (gatherRows rows))
      (fun rows hlen => by rw [hlen, harray hne]) hlt hlen hv

theorem traced_reorder (hwf : d.WellFormed) {indices : IndexArray}
    (halike : ReadAlike indices d) (h : d.reorder indices = .ok r) : Traced [d] r := by
  unfold reorder at h
  cases hb : d.batch with
  | none =>
    rw [hb] at h
    cases h
  | some td =>
    rw [hb] at h
    obtain ⟨idxs, hidxs, h⟩ := bind_eq_ok.1 h
    obtain ⟨nonTensorBatch, harrays, h⟩ := bind_eq_ok.1 h
    cases h
    have hsize : td.batchSize = d.len := (len_of_batch hb).symm
    have hlt : ∀ i ∈ idxs, i < d.len := by
      rw [← hsize]
      exact lt_of_mem_tensorRows hidxs
    obtain ⟨checked, htensors, harray, -⟩ := halike.checked
    have hnonTensor : Gathers idxs d.nonTensorBatch.items nonTensorBatch.items := by
      apply gathers_of_mapValsM harrays hwf
      intro hne rows v hlen hv
      rw [hlen, ← harray hne, htensors (by rw [hb]; exact Option.some_ne_none td), ← hsize, hidxs]
        at hv
      cases hv
      exact ⟨rfl, hlt⟩
    apply traced_of_gathered ?_ hnonTensor
    · unfold checkConsistency
      apply forM_eq_ok
      intro c hc
      rw [hnonTensor.length_eq hc, TensorDict.batchSize_gather (by rw [hsize]; exact hlt),
        beq_self_eq_true, pyAssert_true]
    · unfold tensorColumns
      rw [hb]
      exact gathers_of_mapVals td.rows_eq (fun _ _ => rfl) (by rw [hsize]; exact hlt)

/-! ### Repeats -/

theorem gatherRows_replicate_eq (rows : List α) (i t : Nat) : gatherRows rows (replicate t i) =
      (gatherRows rows [i]).flatMap fun v => replicate t v := by
  unfold gatherRows
  cases hi : rows[i]? with
  | none => simp [hi]
  | some v => simp [hi]

theorem gatherRows_repeatRows (rows : List α) (idxs : List Nat) (repeatTimes : Nat)
    (interleave : Bool) :
    gatherRows rows (repeatRows repeatTimes interleave idxs) =
      repeatRows repeatTimes interleave (gatherRows rows idxs) := by
  unfold repeatRows
  cases interleave with
  | true =>
    simp only [if_true]
    induction idxs with
    | nil => rfl
    | cons i idxs ih =>
      have hcons : gatherRows rows (i :: idxs) = gatherRows rows [i] ++ gatherRows rows idxs :=
        gatherRows_append rows [i] idxs
      rw [flatMap_cons, gatherRows_append, ih, hcons, flatMap_append,
        gatherRows_replicate_eq]
  | false =>
    simp only [Bool.false_eq_true, if_false]
    rw [gatherRows_flatten, flatMap_def, map_replicate]

theorem repeatRows_eq_gatherRows (h : rows.length = n) (repeatTimes : Nat) (interleave : Bool) :
    repeatRows repeatTimes interleave rows =
      gatherRows rows (repeatRows repeatTimes interleave (range n)) := by
  rw [gatherRows_repeatRows, ← h, gatherRows_range]

theorem mem_of_mem_repeatRows {repeatTimes : Nat} {interleave : Bool}
    {v : α} (h : v ∈ repeatRows repeatTimes interleave rows) : v ∈ rows := by
  cases interleave with
  | true =>
    obtain ⟨w, hw, hv⟩ := mem_flatMap.1 h
    rwa [eq_of_mem_replicate hv]
  | false =>
    obtain ⟨part, hpart, hv⟩ := mem_flatten.1 h
    rwa [eq_of_mem_replicate hpart] at hv

theorem traced_repeat (hwf : d.WellFormed) {repeatTimes : Nat}
    {interleave : Bool} (h : d.repeat_ repeatTimes interleave = .ok r) : Traced [d] r := by
  obtain ⟨batch, hbatch, h⟩ := bind_eq_ok.1 h
  obtain ⟨rfl, hnonTensor, hcheck⟩ := new_eq_ok h
  have hlt : ∀ i ∈ repeatRows repeatTimes interleave (range d.len), i < d.len :=
    fun i hi => mem_range.1 (mem_of_mem_repeatRows hi)
  have htensor : Gathers (repeatRows repeatTimes interleave (range d.len)) d.tensorColumns
      r.tensorColumns := by
    apply gathers_of_onBatch hbatch
    intro td td' hb htd
    have hsize : td.batchSize = d.len := (len_of_batch hb).symm
    rw [columns_of_new htd]
    exact gathers_of_mapVals (by rw [← hsize]; exact td.rows_eq)
      (fun rows hlen => repeatRows_eq_gatherRows hlen repeatTimes interleave) hlt
  apply traced_of_gathered htensor ?_ hcheck
  rw [hnonTensor]
  exact gathers_of_mapVals hwf
    (fun rows hlen => repeatRows_eq_gatherRows hlen repeatTimes interleave) hlt

theorem gatherRows_zip_repeat (h : ∀ i ∈ idxs, i < rows.length) (repeatTimes : List Nat) :
    gatherRows rows ((idxs.zip repeatTimes).flatMap fun p => replicate p.2 p.1) =
      ((gatherRows rows idxs).zip repeatTimes).flatMap fun p => replicate p.2 p.1 := by
  induction idxs generalizing repeatTimes with
  | nil => rfl
  | cons i idxs ih =>
    have hi := h i mem_cons_self
    have hcons : gatherRows rows (i :: idxs) = rows[i] :: gatherRows rows idxs := by
      unfold gatherRows
      rw [filterMap_cons_some (getElem?_eq_getElem hi)]
    have hone : gatherRows rows [i] = [rows[i]] := by
      unfold gatherRows
      rw [filterMap_cons_some (getElem?_eq_getElem hi)]
      rfl
    cases repeatTimes with
    | nil => simp [gatherRows]
    | cons t repeatTimes =>
      rw [zip_cons_cons, flatMap_cons, gatherRows_append, hcons, zip_cons_cons,
        flatMap_cons, ih (fun j hj => h j (mem_cons_of_mem _ hj)),
        gatherRows_replicate_eq, hone, flatMap_singleton]

/-- The rows of `sample_level_repeat` are the same for all columns of one length. -/
theorem repeatEach_eq (h : rows.length = n) (repeatTimes : List Nat) :
    repeatEach repeatTimes rows =
      (repeatEach repeatTimes (range n)).map (gatherRows rows) := by
  subst h
  match repeatTimes with
  | [] => rfl
  | [times] =>
    have hrows : repeatRows times true rows =
        gatherRows rows (repeatRows times true (range rows.length)) :=
      repeatRows_eq_gatherRows rfl times true
    exact congrArg Except.ok hrows
  | t :: t' :: repeatTimes =>
    unfold repeatEach
    rw [length_range]
    by_cases hlen : (t :: t' :: repeatTimes).length = rows.length
    · rw [if_pos hlen, if_pos hlen]
      have hlt : ∀ i ∈ range rows.length, i < rows.length := fun i hi => mem_range.1 hi
      have hzip := gatherRows_zip_repeat hlt (t :: t' :: repeatTimes)
      rw [gatherRows_range] at hzip
      exact congrArg Except.ok hzip.symm
    · rw [if_neg hlen, if_neg hlen]
      rfl

theorem mem_of_mem_repeatEach {repeatTimes : List Nat} {results : List α}
    (h : repeatEach repeatTimes rows = .ok results) : ∀ v ∈ results, v ∈ rows := by
  intro v hv
  unfold repeatEach at h
  split at h
  · cases h
  · grind
  · split at h
    · cases h
      obtain ⟨p, hp, hv⟩ := mem_flatMap.1 hv
      rw [eq_of_mem_replicate hv]
      exact (of_mem_zip hp).1
    · cases h

theorem traced_sampleLevelRepeat (hwf : d.WellFormed)
    {repeatTimes : List Nat} (h : d.sampleLevelRepeat repeatTimes = .ok r) : Traced [d] r := by
  obtain ⟨batch, hbatch, h⟩ := bind_eq_ok.1 h
  obtain ⟨nonTensorBatch, harrays, h⟩ := bind_eq_ok.1 h
  have hlt : ∀ idxs, repeatEach repeatTimes (range d.len) = .ok idxs →
      ∀ i ∈ idxs, i < d.len :=
    fun idxs hidxs i hi => mem_range.1 (mem_of_mem_repeatEach hidxs i hi)
  apply traced_of_columns hwf ((repeatEach repeatTimes (range d.len)).toOption.getD [])
    hbatch harrays h
  · intro td td' hb htd
    have hsize : td.batchSize = d.len := (len_of_batch hb).symm
    exact gathers_of_checked (fun rows hlen => repeatEach_eq hlen repeatTimes) hlt hsize htd
  · intro _ rows v hlen hv
    exact gather_of_checked (fun rows hlen => repeatEach_eq hlen repeatTimes) hlt hlen hv

/-! ### Chunks and splits -/

/-- The pieces of a column, with the last one what the others leave. -/
theorem arraySplit_dropLast (rows : List α) (sizes : List Nat) (start : Nat)
    (hne : sizes ≠ []) (hsum : start + sizes.sum = rows.length) :
    arraySplit (rows.drop start) sizes.dropLast =
      (pieceIdxs start sizes).map (gatherRows rows) := by
  induction sizes generalizing start with
  | nil => exact absurd rfl hne
  | cons size sizes ih =>
    rw [sum_cons] at hsum
    cases sizes with
    | nil =>
      rw [sum_nil] at hsum
      show [rows.drop start] = [gatherRows rows (range' start size)]
      rw [gatherRows_range', take_of_length_le]
      rw [length_drop]
      omega
    | cons size' sizes =>
      show (rows.drop start).take size :: arraySplit ((rows.drop start).drop size) _ =
        gatherRows rows (range' start size) ::
          (pieceIdxs (start + size) (size' :: sizes)).map (gatherRows rows)
      rw [drop_drop, ih (start + size) (cons_ne_nil _ _) (by omega), gatherRows_range']

theorem length_pieceIdxs (start : Nat) (sizes : List Nat) :
    (pieceIdxs start sizes).length = sizes.length := by
  induction sizes generalizing start with
  | nil => rfl
  | cons size sizes ih => exact congrArg (· + 1) (ih (start + size))

theorem lt_of_mem_pieceIdxs {sizes : List Nat} {start : Nat} {piece : List Nat}
    (h : piece ∈ pieceIdxs start sizes) : ∀ i ∈ piece, i < start + sizes.sum := by
  induction sizes generalizing start with
  | nil => cases h
  | cons size sizes ih =>
    rcases mem_cons.1 h with rfl | h
    · grind
    · grind

theorem sum_chunkSizes (hchunks : 1 ≤ chunks) : (chunkSizes n chunks).sum = n := by
  unfold chunkSizes
  rw [sum_range_min]
  apply Nat.min_eq_right
  rcases Nat.eq_zero_or_pos n with rfl | hn
  · exact Nat.zero_le _
  · have hsize : 1 ≤ (n + chunks - 1) / chunks := (Nat.one_le_div_iff hchunks).2 (by omega)
    generalize (n + chunks - 1) / chunks = size at *
    have hdiv := Nat.div_add_mod (n + size - 1) size
    have hmod := Nat.mod_lt (n + size - 1) hsize
    rw [Nat.mul_comm] at hdiv
    omega

theorem sum_range_ite (a q m : Nat) :
    ((range m).map fun i => q + if i < a then 1 else 0).sum = m * q + min m a := by
  induction m with
  | zero => simp
  | succ m ih =>
    rw [range_succ, map_append, sum_append, map_singleton,
      sum_singleton, Nat.succ_mul]
    by_cases h : m < a
    · rw [if_pos h]
      omega
    · rw [if_neg h]
      omega

theorem sum_arraySplitSizes (hchunks : 1 ≤ chunks) : (arraySplitSizes n chunks).sum = n := by
  have hdiv := Nat.div_add_mod n chunks
  have hmod := Nat.mod_lt n hchunks
  unfold arraySplitSizes
  rw [sum_range_ite, Nat.min_eq_right hmod.le]
  exact hdiv

/-- The pieces that `chunk` cuts all columns into. -/
def chunkPieces (d : DataProto τ ν) (chunks : Nat) : List (List Nat) :=
  match d.batch with
  | some td => pieceIdxs 0 (chunkSizes td.batchSize chunks)
  | none => pieceIdxs 0 (arraySplitSizes d.len chunks)

theorem lt_of_mem_chunkPieces (hchunks : 1 ≤ chunks)
    {piece : List Nat} (h : piece ∈ d.chunkPieces chunks) : ∀ i ∈ piece, i < d.len := by
  unfold chunkPieces at h
  cases hb : d.batch with
  | some td =>
    rw [hb] at h
    have hlt := lt_of_mem_pieceIdxs h
    rwa [Nat.zero_add, sum_chunkSizes hchunks, ← len_of_batch hb] at hlt
  | none =>
    rw [hb] at h
    have hlt := lt_of_mem_pieceIdxs h
    rwa [Nat.zero_add, sum_arraySplitSizes hchunks] at hlt

theorem chunkColumn_eq (hchunks : 1 ≤ chunks)
    (hne : d.chunkPieces chunks ≠ []) {rows : List ν} (hlen : rows.length = d.len) :
    d.chunkColumn chunks rows = (d.chunkPieces chunks).map (gatherRows rows) := by
  unfold chunkColumn
  unfold chunkPieces at hne ⊢
  cases hb : d.batch with
  | some td =>
    rw [hb] at hne
    dsimp only at hne
    have hsizes : chunkSizes td.batchSize chunks ≠ [] := by
      intro h
      rw [h] at hne
      exact hne rfl
    have hsplit := arraySplit_dropLast rows _ 0 hsizes
      (by rw [Nat.zero_add, sum_chunkSizes hchunks, hlen, len_of_batch hb])
    rwa [drop_zero] at hsplit
  | none =>
    rw [hb] at hne
    have hsizes : arraySplitSizes d.len chunks ≠ [] := by
      intro h
      rw [h] at hne
      exact hne rfl
    have hsplit := arraySplit_dropLast rows _ 0 hsizes
      (by rw [Nat.zero_add, sum_arraySplitSizes hchunks, hlen])
    rw [hlen]
    exact hsplit

/-- The batch of chunk `i` is a gather of piece `i`, when there is a batch. -/
theorem chunkBatch_eq {i : Nat} (hi : i < chunks)
    {batch : Option (TensorDict τ)} (h : (d.chunkBatch chunks)[i]? = some batch) :
    ∃ piece, (d.chunkPieces chunks)[i]? = some piece ∧ batch = d.batch.map (·.gather piece) := by
  unfold chunkBatch at h
  unfold chunkPieces
  cases hb : d.batch with
  | some td =>
    rw [hb] at h
    rw [getElem?_map, Option.map_eq_some_iff] at h
    obtain ⟨piece, hpiece, rfl⟩ := h
    exact ⟨piece, hpiece, rfl⟩
  | none =>
    rw [hb] at h
    rw [getElem?_replicate, if_pos hi] at h
    cases h
    have hlt : i < (pieceIdxs 0 (arraySplitSizes d.len chunks)).length := by
      rw [length_pieceIdxs]
      unfold arraySplitSizes
      rw [length_map, length_range]
      exact hi
    exact ⟨_, getElem?_eq_getElem hlt, rfl⟩

theorem traced_chunk (hwf : d.WellFormed) {autoPadding : Bool}
    {rs : List (DataProto τ ν)} (h : d.chunk autoPadding chunks = .ok rs) :
    ∀ r ∈ rs, Traced [d] r := by
  intro r hr
  unfold chunk at h
  by_cases hzero : chunks = 0
  · rw [if_pos hzero] at h
    cases h
  rw [if_neg hzero] at h
  obtain ⟨u, -, h⟩ := bind_eq_ok.1 h
  obtain ⟨u', -, h⟩ := bind_eq_ok.1 h
  obtain ⟨i, hi, hchunk⟩ := exists_of_forall₂ (forall₂_of_mapM_eq_ok h) hr
  rw [mem_range] at hi
  cases hbatch : (d.chunkBatch chunks)[i]? with
  | none =>
    rw [hbatch] at hchunk
    cases hchunk
  | some batch =>
    rw [hbatch] at hchunk
    obtain ⟨piece, hpiece, hgather⟩ := chunkBatch_eq hi hbatch
    obtain ⟨hrb, hrn, hcheck⟩ := new_eq_ok hchunk
    have hne : d.chunkPieces chunks ≠ [] := by grind
    have hlt := lt_of_mem_chunkPieces (by omega) (mem_of_getElem? hpiece)
    have htensor : Gathers piece d.tensorColumns r.tensorColumns := by
      unfold tensorColumns
      rw [hrb, hgather]
      cases hb : d.batch with
      | none =>
        intro c hc
        cases hc
      | some td =>
        rw [len_of_batch hb] at hlt
        exact gathers_of_mapVals td.rows_eq (fun _ _ => rfl) hlt
    apply traced_of_gathered htensor ?_ hcheck
    rw [hrn]
    apply gathers_of_mapVals hwf ?_ hlt
    intro rows hlen
    rw [chunkColumn_eq (by omega) hne hlen, getD_eq_getElem?_getD, getElem?_map, hpiece]
    rfl

theorem traced_split (hwf : d.WellFormed) {splitSize : Int}
    {rs : List (DataProto τ ν)} (h : d.split splitSize = .ok rs) : ∀ r ∈ rs, Traced [d] r := by
  intro r hr
  unfold split at h
  by_cases hzero : splitSize = 0
  · grind
  · rw [if_neg hzero] at h
    obtain ⟨k, -, hslice⟩ := exists_of_forall₂ (forall₂_of_mapM_eq_ok h) hr
    exact traced_slice hwf hslice

/-! ## Results of several operands -/

theorem map_some_range (h : rows.length = n) : rows.map some = (range n).map fun i => rows[i]? := by
  subst h
  have hall : (gatherRows rows (range rows.length)).map some =
      (range rows.length).map fun i => rows[i]? :=
    map_some_gatherRows fun i hi => mem_range.1 hi
  rwa [gatherRows_range] at hall

theorem stores_union (tests : StoreTests (List τ) (List ν) PyVal) (self other : DataProto τ ν) :
    (self.union tests other).1.stores = (self.stores.union tests other.stores).1 := by
  unfold union stores
  dsimp only
  split
  · next h => exact congrArg (DataStores.mk · _ _) h.symm
  · next batch h => exact congrArg (DataStores.mk · _ _) h.symm

/-- Every column of a union is a column of one of the two, and both have as many rows. -/
theorem union_columns {tests : StoreTests (List τ) (List ν) PyVal} {self other : DataProto τ ν}
    (h : self.union tests other = (r, none)) :
    self.len = r.len ∧ other.len = r.len ∧
      (∀ c ∈ r.tensorColumns, c ∈ self.tensorColumns ∨ c ∈ other.tensorColumns) ∧
      ∀ c ∈ r.nonTensorBatch.items,
        c ∈ self.nonTensorBatch.items ∨ c ∈ other.nonTensorBatch.items := by
  have herr : (self.stores.union tests other.stores).2 = none := congrArg Prod.snd h
  have hstores := stores_union tests self other
  rw [h] at hstores
  obtain ⟨batch1, batch2, h1, h2, htensor, hunion⟩ := DataStores.union_eq_of_none tests herr
  obtain ⟨td1, hb1, rfl⟩ := batch_stores_eq_some h1
  obtain ⟨td2, hb2, rfl⟩ := batch_stores_eq_some h2
  rw [hunion] at hstores
  obtain ⟨td, hb, hbatch⟩ := batch_stores_eq_some (congrArg DataStores.batch hstores)
  have hsize : td1.batchSize = td2.batchSize := by
    by_contra hne
    unfold unionTensorDict at htensor
    rw [if_neg hne] at htensor
    cases htensor
  have hbatchSize : td1.batchSize = td.batchSize := by
    have heq := congrArg TensorColumns.batchSize hbatch
    rwa [batchSize_unionTensorDict] at heq
  have hcolumns : (unionTensorDict tests { batchSize := td1.batchSize, columns := td1.columns }
      { batchSize := td2.batchSize, columns := td2.columns }).1.columns = td.columns :=
    congrArg TensorColumns.columns hbatch
  have hnonTensor : r.nonTensorBatch =
      (unionNumpyDict tests self.nonTensorBatch other.nonTensorBatch).1 :=
    congrArg DataStores.nonTensorBatch hstores
  rw [len_of_batch hb1, len_of_batch hb2, len_of_batch hb]
  refine ⟨hbatchSize, hsize.symm.trans hbatchSize, ?_, ?_⟩
  · intro c hc
    unfold tensorColumns at hc ⊢
    rw [hb] at hc
    rw [hb1, hb2]
    dsimp only at hc
    rw [← hcolumns] at hc
    exact (mem_columns_unionTensorDict tests hc).imp_right fun hand => hand.2
  · intro c hc
    rw [hnonTensor] at hc
    exact mem_items_mergeUntil hc

/-- Row `i` of the result from row `i` of either operand. -/
def unionMaps (n : Nat) : List (List (Nat × Nat)) :=
  [(List.range n).map fun i => (0, i), (List.range n).map fun i => (1, i)]

theorem rowMaps_union {tests : StoreTests (List τ) (List ν) PyVal} {self other : DataProto τ ν}
    (hself : self.WellFormed) (hother : other.WellFormed) (h : self.union tests other = (r, none)) :
    r.WellFormed ∧ RowMaps [self, other] r (unionMaps r.len) := by
  obtain ⟨hlen1, hlen2, htensor, hnonTensor⟩ := union_columns h
  have hwf : r.WellFormed := by
    intro c hc
    rcases hnonTensor c hc with hc | hc
    · rw [hself c hc, hlen1]
    · rw [hother c hc, hlen2]
  unfold unionMaps
  refine ⟨hwf, ?_, ?_, ?_, ?_⟩
  · simp
  · intro c hc
    rw [map_some_range (length_of_mem_tensorColumns hc)]
    rcases htensor c hc with hmem | hmem
    · refine ⟨_, mem_cons_self, ?_⟩
      rw [map_map]
      exact map_congr_left fun i _ => (tensorAt_of_mem hmem i).symm
    · refine ⟨_, mem_cons_of_mem _ (mem_singleton_self _), ?_⟩
      rw [map_map]
      exact map_congr_left fun i _ => (tensorAt_of_mem hmem i).symm
  · intro c hc
    rw [map_some_range (hwf c hc)]
    rcases hnonTensor c hc with hmem | hmem
    · refine ⟨_, mem_cons_self, ?_⟩
      rw [map_map]
      exact map_congr_left fun i _ => (nonTensorAt_of_mem hmem i).symm
    · refine ⟨_, mem_cons_of_mem _ (mem_singleton_self _), ?_⟩
      rw [map_map]
      exact map_congr_left fun i _ => (nonTensorAt_of_mem hmem i).symm
  · simp

/-! ### Concatenation -/

/-- The rows of operands of the given sizes, one operand after the other. -/
def operandRows : Nat → List Nat → List (Nat × Nat)
  | _, [] => []
  | k, size :: sizes => (List.range size).map (fun i => (k, i)) ++ operandRows (k + 1) sizes

theorem operandRows_cons (k size : Nat) (sizes : List Nat) : operandRows k (size :: sizes) =
      (range size).map (fun i => (k, i)) ++ operandRows (k + 1) sizes := rfl

theorem length_operandRows (k : Nat) (sizes : List Nat) :
    (operandRows k sizes).length = sizes.sum := by
  induction sizes generalizing k with
  | nil => rfl
  | cons size sizes ih =>
    rw [operandRows_cons, length_append, length_map, length_range, ih,
      sum_cons]

/-- A column put together from one column of each operand. -/
theorem map_some_flatten (columns : List (List α)) (k : Nat) (read : Nat × Nat → Option α)
    (hread : ∀ j i, read (k + j, i) = (columns[j]?).bind fun rows => rows[i]?) :
    columns.flatten.map some = (operandRows k (columns.map length)).map read := by
  induction columns generalizing k with
  | nil => rfl
  | cons rows columns ih =>
    rw [map_cons, operandRows_cons, flatten_cons, map_append, map_append,
      map_map, map_some_range rfl]
    congr 1
    · apply map_congr_left
      intro i _
      exact (hread 0 i).symm
    · apply ih
      intro j i
      have hnext := hread (j + 1) i
      rwa [show k + (j + 1) = k + 1 + j by omega] at hnext

def tensorRowsOf (d : DataProto τ ν) (key : String) : List τ :=
  (d.batch.bind fun td => td.columns.get? key).getD []

def nonTensorRowsOf (d : DataProto τ ν) (key : String) : List ν :=
  (d.nonTensorBatch.get? key).getD []

theorem tensorAt_eq (d : DataProto τ ν) (key : String) (i : Nat) :
    d.tensorAt key i = (d.tensorRowsOf key)[i]? := by
  unfold tensorAt tensorRowsOf
  cases d.batch.bind fun td => td.columns.get? key <;> rfl

theorem nonTensorAt_eq (d : DataProto τ ν) (key : String) (i : Nat) :
    d.nonTensorAt key i = (d.nonTensorRowsOf key)[i]? := by
  unfold nonTensorAt nonTensorRowsOf
  cases d.nonTensorBatch.get? key <;> rfl

theorem map_some_operands {sizeOf : DataProto τ ν → Nat}
    {rowsOf : DataProto τ ν → List α} (h : ∀ d ∈ data, (rowsOf d).length = sizeOf d) :
    (data.flatMap rowsOf).map some = (operandRows 0 (data.map sizeOf)).map fun p =>
      (data[p.1]?).bind fun d => (rowsOf d)[p.2]? := by
  have hsizes : data.map sizeOf = (data.map rowsOf).map length := by
    rw [map_map]
    exact map_congr_left fun d hd => (h d hd).symm
  rw [hsizes]
  apply map_some_flatten
  intro j i
  rw [Nat.zero_add, getElem?_map]
  cases data[j]? <;> rfl

/-- The columns of `r` are put together from the operands, each of which has the same number of
rows in all its columns that are taken. -/
theorem traced_of_flatMap (sizeOf : DataProto τ ν → Nat) (hchecked : r.checkConsistency = .ok ())
    (htensor : ∀ c ∈ r.tensorColumns, c.2 = data.flatMap (fun d => d.tensorRowsOf c.1) ∧
      ∀ d ∈ data, (d.tensorRowsOf c.1).length = sizeOf d)
    (hnonTensor : ∀ c ∈ r.nonTensorBatch.items,
      c.2 = data.flatMap (fun d => d.nonTensorRowsOf c.1) ∧
      ∀ d ∈ data, (d.nonTensorRowsOf c.1).length = sizeOf d) : Traced data r := by
  have hsum : ∀ {α : Type} {rowsOf : DataProto τ ν → List α},
      (∀ d ∈ data, (rowsOf d).length = sizeOf d) →
      (data.flatMap rowsOf).length = (data.map sizeOf).sum := by
    intro α rowsOf h
    rw [length_flatMap]
    congr 1
    exact map_congr_left h
  have hwf : r.WellFormed := wellFormed_of_checked (n := (data.map sizeOf).sum) hchecked (by
    intro c hc
    rw [(hnonTensor c hc).1]
    exact hsum (hnonTensor c hc).2)
  refine ⟨hwf, ?_⟩
  by_cases hcolumns : r.tensorColumns = [] ∧ r.nonTensorBatch.items = []
  · exact ⟨[], rowMaps_nil _ hcolumns.1 hcolumns.2⟩
  · have hlen : (data.map sizeOf).sum = r.len := by
      rcases not_and_or.1 hcolumns with hne | hne
      · obtain ⟨c, hc⟩ := exists_mem_of_ne_nil _ hne
        rw [← length_of_mem_tensorColumns hc, (htensor c hc).1, hsum (htensor c hc).2]
      · obtain ⟨c, hc⟩ := exists_mem_of_ne_nil _ hne
        rw [← hwf c hc, (hnonTensor c hc).1, hsum (hnonTensor c hc).2]
    refine ⟨[operandRows 0 (data.map sizeOf)], ?_, ?_, ?_, pairwise_singleton _ _⟩
    · intro m hm
      rw [mem_singleton.1 hm, length_operandRows, hlen]
    · intro c hc
      refine ⟨_, mem_singleton_self _, ?_⟩
      simp only [tensorAt_eq]
      rw [(htensor c hc).1]
      exact map_some_operands (htensor c hc).2
    · intro c hc
      refine ⟨_, mem_singleton_self _, ?_⟩
      simp only [nonTensorAt_eq]
      rw [(hnonTensor c hc).1]
      exact map_some_operands (hnonTensor c hc).2

theorem eq_of_sum_eq {f g : α → Nat} {xs : List α} (hle : ∀ x ∈ xs, f x ≤ g x)
    (hsum : (xs.map f).sum = (xs.map g).sum) : ∀ x ∈ xs, f x = g x := by
  induction xs with
  | nil => simp
  | cons x xs ih =>
    have hx := hle x mem_cons_self
    have hxs : ∀ y ∈ xs, f y ≤ g y := fun y hy => hle y (mem_cons_of_mem _ hy)
    have hrest : (xs.map f).sum ≤ (xs.map g).sum := sum_le_sum hxs
    rw [map_cons, map_cons, sum_cons, sum_cons] at hsum
    rw [forall_mem_cons]
    exact ⟨by omega, ih hxs (by omega)⟩

theorem map_eq_of_forall₂ {γ : Type} {R : α → β → Prop} {xs : List α} {ys : List β}
    {f : α → γ} {g : β → γ} (h : Forall₂ R xs ys) (hfg : ∀ x y, R x y → f x = g y) :
    xs.map f = ys.map g := by
  induction h with
  | nil => rfl
  | cons hxy _ ih => rw [map_cons, map_cons, ih, hfg _ _ hxy]

theorem cat_eq_ok {tds : List (TensorDict τ)} (h : TensorDict.cat tds = .ok td) :
    td.batchSize = (tds.map TensorDict.batchSize).sum ∧
      ∀ c ∈ td.columns.items, c.2 = TensorDict.catColumn tds c.1 ∧
        ∀ td' ∈ tds, c.1 ∈ td'.columns.keys := by
  cases tds with
  | nil => cases h
  | cons first rest =>
    unfold TensorDict.cat at h
    dsimp only at h
    split at h
    · next hkeys =>
      cases h
      refine ⟨rfl, fun c hc => ?_⟩
      obtain ⟨p, hp, rfl⟩ := mem_map.1 hc
      have hfirst : p.1 ∈ first.columns.keys := mem_map.2 ⟨p, hp, rfl⟩
      exact ⟨rfl, forall_mem_cons.2 ⟨hfirst, fun td' htd' => (hkeys td' htd').1 p.1 hfirst⟩⟩
    · cases h

/-- With tensor columns in the first element, all elements have the same ones. -/
theorem catBatches_eq_some (h : catBatches (data.map batch) = .ok (some td)) :
    td.batchSize = (data.map len).sum ∧
      ∀ c ∈ td.columns.items, c.2 = data.flatMap (fun d => d.tensorRowsOf c.1) ∧
        ∀ d ∈ data, (d.tensorRowsOf c.1).length = d.len := by
  obtain ⟨tds, hbatches, hcat⟩ : ∃ tds, Forall₂ (fun d td => d.batch = some td) data tds ∧
      TensorDict.cat tds = .ok td := by
    unfold catBatches at h
    split at h
    · cases h
    · cases h
    · obtain ⟨tds, htds, h⟩ := bind_eq_ok.1 h
      obtain ⟨cat, hcat, h⟩ := bind_eq_ok.1 h
      cases h
      refine ⟨tds, (forall₂_map_left_iff.1 (forall₂_of_mapM_eq_ok htds)).imp ?_, hcat⟩
      intro d td' htd'
      cases hb : d.batch with
      | none =>
        rw [hb] at htd'
        cases htd'
      | some td =>
        rw [hb] at htd'
        exact congrArg some (Except.ok.inj htd')
  obtain ⟨hsize, hcolumns⟩ := cat_eq_ok hcat
  have hlens : data.map len = tds.map TensorDict.batchSize :=
    map_eq_of_forall₂ hbatches fun d td' hb => len_of_batch hb
  refine ⟨by rw [hsize, hlens], fun c hc => ?_⟩
  obtain ⟨hrows, hkeys⟩ := hcolumns c hc
  constructor
  · rw [hrows, TensorDict.catColumn, flatMap_def]
    congr 1
    apply (map_eq_of_forall₂ hbatches _).symm
    intro d td' hb
    unfold tensorRowsOf
    rw [hb, Option.bind_some]
  · intro d hd
    obtain ⟨td', htd', hb⟩ := exists_of_forall₂ hbatches.flip hd
    obtain ⟨p, hp, hkey⟩ := mem_map.1 (hkeys td' htd')
    unfold tensorRowsOf
    rw [hb, Option.bind_some, ← hkey, get?_eq_some hp, len_of_batch hb]
    exact td'.rows_eq p hp

theorem catBatches_eq_none {first : DataProto τ ν} {rest : List (DataProto τ ν)}
    (h : catBatches ((first :: rest).map batch) = .ok none) : first.batch = none := by
  rw [map_cons] at h
  cases hb : first.batch with
  | none => rfl
  | some td =>
    rw [hb] at h
    obtain ⟨tds, -, h⟩ := bind_eq_ok.1 h
    obtain ⟨cat, -, h⟩ := bind_eq_ok.1 h
    cases h

/-- The columns of `list_of_dict_to_dict_of_list`, and which keys there may be. -/
theorem listOfDictToDictOfList_items {first : Dict β} {rest : List (Dict β)}
    {lists : Dict (List β)} (h : listOfDictToDictOfList (first :: rest) = .ok lists) :
    (∀ d ∈ first :: rest, ∀ key ∈ d.keys, key ∈ first.keys) ∧
      lists = first.mapVals fun key _ => (first :: rest).filterMap (·.get? key) := by
  unfold listOfDictToDictOfList at h
  dsimp only at h
  split at h
  · cases h
  · grind

theorem flatten_filterMap_get? (data : List (DataProto τ ν)) (key : String) :
    ((data.map nonTensorBatch).filterMap (·.get? key)).flatten =
      data.flatMap fun d => d.nonTensorRowsOf key := by
  induction data with
  | nil => rfl
  | cons d data ih =>
    rw [map_cons, filterMap_cons, flatMap_cons, ← ih]
    unfold nonTensorRowsOf
    cases d.nonTensorBatch.get? key <;> rfl

theorem length_nonTensorRowsOf (hwf : d.WellFormed) {key : String}
    (h : key ∈ d.nonTensorBatch.keys) : (d.nonTensorRowsOf key).length = d.len := by
  obtain ⟨c, hc, rfl⟩ := mem_map.1 h
  unfold nonTensorRowsOf
  rw [get?_eq_some hc]
  exact hwf c hc

theorem nonTensorRowsOf_eq_nil {key : String}
    (h : key ∉ d.nonTensorBatch.keys) : d.nonTensorRowsOf key = [] := by
  unfold nonTensorRowsOf
  rw [get?_eq_none_iff.2 h]
  rfl

/-- Without tensor columns in the first element, every element with rows has all of the first
one's numpy columns, or none at all. -/
def SameColumns (data : List (DataProto τ ν)) : Prop :=
  ∀ first ∈ data.head?, first.batch = none → ∀ d ∈ data,
    d.nonTensorBatch.items = [] ∨ d.len = 0 ∨
      ∀ key ∈ first.nonTensorBatch.keys, key ∈ d.nonTensorBatch.keys

theorem traced_concat
    (hwf : ∀ d ∈ data, d.WellFormed) (hsame : SameColumns data) (h : concat data = .ok r) :
    Traced data r := by
  unfold concat at h
  obtain ⟨newBatch, hbatch, h⟩ := bind_eq_ok.1 h
  obtain ⟨lists, hlists, h⟩ := bind_eq_ok.1 h
  obtain ⟨merged, -, h⟩ := bind_eq_ok.1 h
  obtain ⟨rfl, hnt, hcheck⟩ := new_eq_ok h
  cases data with
  | nil =>
    cases hbatch
  | cons first rest =>
    rw [map_cons] at hlists
    obtain ⟨hkeys, rfl⟩ := listOfDictToDictOfList_items hlists
    rw [← map_cons (f := nonTensorBatch)] at hkeys hnt
    have hcolumn : ∀ c ∈ r.nonTensorBatch.items, c.1 ∈ first.nonTensorBatch.keys ∧
        c.2 = (first :: rest).flatMap fun d => d.nonTensorRowsOf c.1 := by
      intro c hc
      rw [hnt, mapVals_mapVals] at hc
      obtain ⟨p, hp, rfl⟩ := mem_map.1 hc
      exact ⟨mem_map.2 ⟨p, hp, rfl⟩, flatten_filterMap_get? _ p.1⟩
    cases hb : r.batch with
    | some td =>
      rw [hb] at hbatch
      obtain ⟨hsize, htensor⟩ := catBatches_eq_some hbatch
      apply traced_of_flatMap len hcheck
      · unfold tensorColumns
        rw [hb]
        exact htensor
      · intro c hc
        obtain ⟨-, hrows⟩ := hcolumn c hc
        refine ⟨hrows, ?_⟩
        -- an element that lacks the column has no rows: the check compares the sums
        unfold checkConsistency at hcheck
        rw [hb] at hcheck
        have hlen := beq_iff_eq.1 (pyAssert_eq_ok.1 (forM_eq_ok_iff.1 hcheck c hc))
        rw [hsize, hrows, length_flatMap] at hlen
        apply eq_of_sum_eq _ hlen
        intro d hd
        by_cases hkey : c.1 ∈ d.nonTensorBatch.keys
        · exact (length_nonTensorRowsOf (hwf d hd) hkey).le
        · rw [nonTensorRowsOf_eq_nil hkey]
          exact Nat.zero_le _
    | none =>
      rw [hb] at hbatch
      have hfirst := catBatches_eq_none hbatch
      apply traced_of_flatMap (fun d => if d.nonTensorBatch.items = [] then 0 else d.len) hcheck
      · unfold tensorColumns
        rw [hb]
        simp
      · intro c hc
        obtain ⟨hkey, hrows⟩ := hcolumn c hc
        refine ⟨hrows, fun d hd => ?_⟩
        by_cases hempty : d.nonTensorBatch.items = []
        · rw [if_pos hempty, nonTensorRowsOf_eq_nil]
          · rfl
          · unfold Dict.keys
            rw [hempty]
            simp
        · rw [if_neg hempty]
          rcases hsame first rfl hfirst d hd with hnil | hzero | hall
          · exact absurd hnil hempty
          · by_cases hmem : c.1 ∈ d.nonTensorBatch.keys
            · exact length_nonTensorRowsOf (hwf d hd) hmem
            · rw [nonTensorRowsOf_eq_nil hmem, hzero]
              rfl
          · exact length_nonTensorRowsOf (hwf d hd) (hall c.1 hkey)

/-! ## Runs -/

/-- A call, without its operands. -/
inductive Call
  | select (batchKeys nonTensorBatchKeys metaInfoKeys : Option (List String))
  | selectIdxs (idxs : IndexArray)
  | slice (start stop step : Option Int)
  | repeat_ (repeatTimes : Nat) (interleave : Bool)
  | sampleLevelRepeat (repeatTimes : List Nat)
  | chunk (autoPadding : Bool) (chunks : Nat)
  | split (splitSize : Int)
  | reorder (indices : IndexArray)
  | union
  | concat

namespace Call

/-- The results of a call that returns; `reorder` and `union` return what `self` has become. -/
def run (tests : StoreTests (List τ) (List ν) PyVal) :
    Call → List (DataProto τ ν) → Except PyErr (List (DataProto τ ν))
  | .select batchKeys nonTensorBatchKeys metaInfoKeys, [d] =>
    (d.select batchKeys nonTensorBatchKeys metaInfoKeys).map ([·])
  | .selectIdxs idxs, [d] => (d.selectIdxsAt idxs).map ([·])
  | .slice start stop step, [d] => (d.slice start stop step).map ([·])
  | .repeat_ repeatTimes interleave, [d] => (d.repeat_ repeatTimes interleave).map ([·])
  | .sampleLevelRepeat repeatTimes, [d] => (d.sampleLevelRepeat repeatTimes).map ([·])
  | .chunk autoPadding chunks, [d] => d.chunk autoPadding chunks
  | .split splitSize, [d] => d.split splitSize
  | .reorder indices, [d] => (d.reorder indices).map ([·])
  | .union, [self, other] =>
    match self.union tests other with
    | (r, none) => .ok [r]
    | (_, some e) => .error e
  | .concat, data => (DataProto.concat data).map ([·])
  | _, _ => .error (.typeError "wrong number of operands")

/-- `self` itself becomes the result. -/
def inPlace : Call → Bool
  | .reorder _ => true
  | .union => true
  | _ => false

/-- The condition under which the columns are moved alike. -/
def Safe : Call → List (DataProto τ ν) → Prop
  | .selectIdxs idxs, operands => ∀ d ∈ operands, ReadAlike idxs d
  | .reorder indices, operands => ∀ d ∈ operands, ReadAlike indices d
  | .concat, data => SameColumns data
  | _, _ => True

/-- The result is well formed and its columns come by one map from each operand, in a union by
the identity. -/
def Sound (call : Call) (operands : List (DataProto τ ν)) (r : DataProto τ ν) : Prop :=
  r.WellFormed ∧ ∃ maps, RowMaps operands r maps ∧ (call = .union → maps = unionMaps r.len)

end Call

variable {call : Call} {tests : StoreTests (List τ) (List ν) PyVal} {pool : List (DataProto τ ν)}

theorem Traced.sound {operands : List (DataProto τ ν)} {r : DataProto τ ν}
    (h : Traced operands r) (hcall : call ≠ .union) : call.Sound operands r := by
  obtain ⟨hwf, maps, hmaps⟩ := h
  exact ⟨hwf, maps, hmaps, fun hunion => absurd hunion hcall⟩

theorem sound_of_map {operands results : List (DataProto τ ν)}
    {one : Except PyErr (DataProto τ ν)} (hcall : call ≠ .union)
    (h : one.map ([·]) = .ok results) (htraced : ∀ r, one = .ok r → Traced operands r) :
    ∀ r ∈ results, call.Sound operands r := by
  obtain ⟨r, hr, rfl⟩ := except_map_eq_ok.1 h
  rw [forall_mem_singleton]
  exact (htraced r hr).sound hcall

theorem sound_of_run {call : Call}
    {operands results : List (DataProto τ ν)} (hwf : ∀ d ∈ operands, d.WellFormed)
    (hsafe : call.Safe operands) (h : call.run tests operands = .ok results) :
    ∀ r ∈ results, call.Sound operands r := by
  unfold Call.run at h
  split at h
  case h_1 => exact sound_of_map (by simp) h fun r => traced_select (hwf _ mem_cons_self)
  case h_2 d =>
    exact sound_of_map (by simp) h fun r =>
      traced_selectIdxsAt (hwf _ mem_cons_self) (hsafe d mem_cons_self)
  case h_3 => exact sound_of_map (by simp) h fun r => traced_slice (hwf _ mem_cons_self)
  case h_4 => exact sound_of_map (by simp) h fun r => traced_repeat (hwf _ mem_cons_self)
  case h_5 =>
    exact sound_of_map (by simp) h fun r => traced_sampleLevelRepeat (hwf _ mem_cons_self)
  case h_6 =>
    intro r hr
    exact (traced_chunk (hwf _ mem_cons_self) h r hr).sound (by simp)
  case h_7 =>
    intro r hr
    exact (traced_split (hwf _ mem_cons_self) h r hr).sound (by simp)
  case h_8 d =>
    exact sound_of_map (by simp) h fun r =>
      traced_reorder (hwf _ mem_cons_self) (hsafe d mem_cons_self)
  case h_9 self other =>
    split at h
    · next r hunion =>
      cases h
      obtain ⟨hr, hmaps⟩ := rowMaps_union (hwf self (by simp)) (hwf other (by simp)) hunion
      rw [forall_mem_singleton]
      exact ⟨hr, _, hmaps, fun _ => rfl⟩
    · cases h
  case h_10 => exact sound_of_map (by simp) h fun r => traced_concat hwf hsafe
  case h_11 => cases h

/-- A call and the positions of its operands in the pool. -/
structure PoolCall where
  call : Call
  positions : List Nat

def operandsAt (pool : List (DataProto τ ν)) (positions : List Nat) : List (DataProto τ ν) :=
  positions.filterMap (pool[·]?)

/-- The calls on a pool of DataProtos.  The results join the pool, or take the place of `self`. -/
def poolCalls (tests : StoreTests (List τ) (List ν) PyVal) :
    StepSystem (List (DataProto τ ν)) PoolCall := fun step =>
  { guard := fun pool => (∀ p ∈ step.positions, p < pool.length) ∧
      (step.call.run tests (operandsAt pool step.positions)).isOk
    effect := fun pool =>
      match step.call.run tests (operandsAt pool step.positions) with
      | .error _ => pool
      | .ok results =>
        if step.call.inPlace then
          match step.positions, results with
          | self :: _, r :: _ => pool.set self r
          | _, _ => pool
        else pool ++ results }

/-- The condition of a run that every call is safe where it is made. -/
def SafeStep (pool : List (DataProto τ ν)) (step : PoolCall) : Prop :=
  step.call.Safe (operandsAt pool step.positions)

theorem wellFormed_operandsAt (hwf : ∀ d ∈ pool, d.WellFormed)
    (positions : List Nat) : ∀ d ∈ operandsAt pool positions, d.WellFormed := by
  intro d hd
  obtain ⟨p, -, hp⟩ := mem_filterMap.1 hd
  exact hwf d (mem_of_getElem? hp)

theorem wellFormed_effect {step : PoolCall} (hwf : ∀ d ∈ pool, d.WellFormed)
    (hsafe : SafeStep pool step) : ∀ d ∈ (poolCalls tests step).effect pool, d.WellFormed := by
  have hsound : ∀ results, step.call.run tests (operandsAt pool step.positions) = .ok results →
      ∀ r ∈ results, step.call.Sound (operandsAt pool step.positions) r := fun _ hrun =>
    sound_of_run (wellFormed_operandsAt hwf _) hsafe hrun
  unfold poolCalls
  dsimp only
  split
  · exact hwf
  · next results hrun =>
    have hresults : ∀ r ∈ results, r.WellFormed := fun r hr => (hsound results hrun r hr).1
    split
    · grind
    · grind

/-- In every run of safe calls on well-formed DataProtos, all DataProtos stay well formed, and
what any safe call returns has one row map for each operand. -/
theorem pool_sound (tests : StoreTests (List τ) (List ν) PyVal) {pool₀ pool : List (DataProto τ ν)}
    (hwf : ∀ d ∈ pool₀, d.WellFormed) (hreach : (poolCalls tests).Reachable SafeStep pool₀ pool) :
    (∀ d ∈ pool, d.WellFormed) ∧
      ∀ step results, SafeStep pool step →
        step.call.run tests (operandsAt pool step.positions) = .ok results →
        ∀ r ∈ results, step.call.Sound (operandsAt pool step.positions) r := by
  have hpool : ∀ d ∈ pool, d.WellFormed :=
    hreach.invariant (I := fun pool => ∀ d ∈ pool, d.WellFormed) hwf
      fun pool step hwf _ hsafe => wellFormed_effect hwf hsafe
  exact ⟨hpool, fun step results hsafe hrun =>
    sound_of_run (wellFormed_operandsAt hpool _) hsafe hrun⟩

/-- Two rows in a tensor column and a numpy column. -/
def twoRows : DataProto Nat Nat where
  batch := some { batchSize := 2, columns := Dict.ofItems [("x", [10, 20])], rows_eq := by decide }
  nonTensorBatch := Dict.ofItems [("uid", [10, 20])]
  metaInfo := Dict.empty

def listTests : StoreTests (List Nat) (List Nat) PyVal where
  tensorEqual := fun a b => .ok (a == b)
  deepEqual := fun a b => .ok (a == b)
  metaEq := fun a b => .ok (a.pyEq b)

/-- Two one-row pieces of the reordered batch, concatenated. -/
theorem pool_sound_twoRows :
    let pool := StepSystem.run (poolCalls listTests) [twoRows]
      [⟨.reorder (.ints [-1, 0]), [0]⟩, ⟨.split 1, [0]⟩]
    ∃ results, Call.run listTests .concat (operandsAt pool [1, 2]) = .ok results ∧
      ∀ r ∈ results, Call.Sound .concat (operandsAt pool [1, 2]) r := by
  refine ⟨_, rfl, ?_⟩
  refine (pool_sound listTests ?_ (StepSystem.reachable_run ?_)).2
    ⟨.concat, [1, 2]⟩ _ ?_ rfl
  · decide
  · refine ⟨⟨by decide, rfl⟩, ?_, ⟨by decide, rfl⟩, trivial, trivial⟩
    exact fun _ _ => .inl trivial
  · intro first hfirst hnone
    cases hfirst
    cases hnone

/-- Rows of elements with different columns: the columns end up with different lengths. -/
theorem concat_not_wellFormed :
    ∃ a b r : DataProto Nat Nat, a.WellFormed ∧ b.WellFormed ∧ concat [a, b] = .ok r ∧
      ¬r.WellFormed :=
  ⟨{ batch := none, nonTensorBatch := Dict.ofItems [("a", [1]), ("b", [2])],
      metaInfo := Dict.empty },
    { batch := none, nonTensorBatch := Dict.ofItems [("a", [3])], metaInfo := Dict.empty },
    _, by decide, by decide, rfl, by decide⟩

end Verl.DataProto
