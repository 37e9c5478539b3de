import Verl.Trainer.AggLoss
import Verl.Trainer.MultiTrajectories

/-! # Padding a batch to a multiple (`verl/trainer/ppo/padding_utils.py`)

The number of rows of a batch must be divisible by the size of the data parallel group and by
the mini-batch sizes.  `upsample_batch_to_divisible_size` appends rows that are meant to do
nothing, made from the first row of the batch:

    template    one prompt token, one response token, all masks zero, no reward
    key         pad{uuid}_{local_idx}_0
    tag         is_padding, prompt_len=1, response_len=1, seq_len=2

The template keeps every field of the first row it does not set.  The token-aligned fields are
set, but for `teacher_ids` and `teacher_logprobs`, which distillation stores: these keep the
length of the first row. -/

namespace Verl.BatchPadding

open MultiTrajectories List Function Dict

/-! ## Rows -/

/-- A tensor: its shape and its entries, in row-major order. -/
structure FlatTensor (K : Type) where
  shape : List Nat
  entries : List K
  length_entries : entries.length = shape.prod

/-- A value in a row; `other` is what is only carried along. -/
inductive FieldValue (K V : Type)
  | tensor (t : FlatTensor K)
  | int (n : Nat)
  | str (s : String)
  | emptyDict
  | other (v : V)

abbrev Sample (K V : Type) := Dict (FieldValue K V)

structure Tag where
  globalSteps : Nat
  status : String
  promptLen : Nat
  responseLen : Nat
  seqLen : Nat
  isPadding : Bool
  deriving DecidableEq, Repr

structure KVBatchMeta (V : Type) where
  keys : List String
  tags : List Tag
  partitionId : String
  fields : Option (List String)
  extraInfo : V

/-! ## Algorithm -/

section Algorithm

variable {K V : Type}

namespace FlatTensor

/-- A tensor of one dimension. -/
def vector (entries : List K) : FlatTensor K where
  shape := [entries.length]
  entries := entries
  length_entries := prod_singleton.symm

def full (shape : List Nat) (a : K) : FlatTensor K where
  shape := shape
  entries := List.replicate shape.prod a
  length_entries := length_replicate

/-- The entries of `row` for every index of the other dimensions. -/
def expandRow (lead : List Nat) (row : List K) : FlatTensor K where
  shape := lead ++ [row.length]
  entries := (List.replicate lead.prod row).flatten
  length_entries := by simp [prod_append]

end FlatTensor

/-- `torch.clip(torch.cumsum(mask, dim=-1) - 1, min=0)`. -/
def computePositionIdWithMask (mask : List Nat) : List Nat :=
  (mask.scanl (· + ·) 0).tail.map (· - 1)

variable [Field K]

def buildPaddingPositionIds (sourcePositionIds : Option (FieldValue K V))
    (attentionMask : List Nat) : FlatTensor K :=
  let positionIds := (computePositionIdWithMask attentionMask).map fun n : Nat => (n : K)
  match sourcePositionIds with
  | some (.tensor source) =>
    if source.shape.length ≤ 1 then .vector positionIds
    else .expandRow source.shape.dropLast positionIds
  | _ => .vector positionIds

def buildPaddingRoutedExperts (sourceRoutedExperts : Option (FieldValue K V)) (seqLen : Nat) :
    Option (FlatTensor K) :=
  match sourceRoutedExperts with
  | some (.tensor source) =>
    match source.shape with
    | [] => some (.full [] 0)
    | _ :: rest => some (.full (seqLen :: rest) 0)
  | _ => none

/-- What `template_sample.update` sets. -/
def templateFields (sourceTd : Sample K V) (eosTokenId : K) : List (String × FieldValue K V) :=
  let prompts := FlatTensor.full [1] eosTokenId
  let inputIds := FlatTensor.full [2] eosTokenId
  let attentionMask := List.replicate 2 1
  let responseMask := FlatTensor.full [1] 0
  let positionIds := buildPaddingPositionIds (sourceTd.get? "position_ids") attentionMask
  [("prompts", .tensor prompts),
    ("responses", .tensor prompts),
    ("input_ids", .tensor inputIds),
    ("attention_mask", .tensor (.vector (attentionMask.map fun n : Nat => (n : K)))),
    ("position_ids", .tensor positionIds),
    ("num_turns", .int 0),
    ("response_mask", .tensor responseMask),
    ("loss_mask", .tensor responseMask),
    ("rm_scores", .tensor (.full [1] 0)),
    ("rollout_log_probs", .tensor (.full [1] 0))]

def constructMinimalPaddingTemplate (sourceTd : Sample K V) (sourceTag : Tag) (eosTokenId : K) :
    Sample K V × Tag :=
  let routedExperts := buildPaddingRoutedExperts (sourceTd.get? "routed_experts") 2
  let templateSample := (templateFields sourceTd eosTokenId).foldl
    (fun d p => d.insert p.1 p.2) sourceTd
  let templateSample := if "multi_modal_inputs" ∈ templateSample.keys then
    templateSample.insert "multi_modal_inputs" .emptyDict else templateSample
  let templateSample := match routedExperts with
    | some t => templateSample.insert "routed_experts" (.tensor t)
    | none => templateSample.pop "routed_experts"
  (templateSample,
    { sourceTag with isPadding := true, promptLen := 1, responseLen := 1, seqLen := 2 })

/-- The rows of some keys of a partition of the TransferQueue. -/
def kvBatchGet (partition : Dict (Sample K V)) (keys : List String) :
    Except PyErr (List (String × Sample K V)) :=
  keys.mapM fun key =>
    match partition.get? key with
    | some sample => .ok (key, sample)
    | none => .error (.keyError key)

/-- A row that is new is stored; the fields of a row that is there are set. -/
def kvBatchPut (rows : List (String × Sample K V)) (partition : Dict (Sample K V)) :
    Dict (Sample K V) :=
  rows.foldl (fun d r => d.insert r.1 <|
    match d.get? r.1 with
    | none => r.2
    | some old => r.2.items.foldl (fun s f => s.insert f.1 f.2) old) partition

def padKey (padUid : String) (localIdx : Nat) : String := s!"{padUid}_{localIdx}_0"

/-- The samples of the `for` loop: copies of the template, in order. -/
def padSample (templateSample : Sample K V) (localIdx : Nat) : Sample K V :=
  if "session_id" ∈ templateSample.keys then templateSample.insert "session_id" (.int localIdx)
  else templateSample

/-- The partition and the batch afterwards; `uuid4Hex` is `uuid.uuid4().hex`. -/
def upsampleBatchToDivisibleSize (uuid4Hex : String) (partition : Dict (Sample K V))
    (batch : KVBatchMeta V) (batchMultiple : Nat) (eosTokenId : K) :
    Except PyErr (Dict (Sample K V) × KVBatchMeta V) :=
  let remainder := batch.keys.length % batchMultiple
  if batchMultiple = 0 then .error .zeroDivisionError
  else if remainder = 0 then .ok (partition, batch)
  else do
    let sourceKey ← pyGetItem batch.keys 0
    let rows ← kvBatchGet partition [sourceKey]
    let (_, sourceTd) ← pyGetItem rows 0
    let sourceTag ← pyGetItem batch.tags 0
    let (templateSample, templateTag) :=
      constructMinimalPaddingTemplate sourceTd sourceTag eosTokenId
    let padUid := "pad" ++ uuid4Hex
    let templateSample := templateSample.insert "uid" (.str padUid)
    let padSize := batchMultiple - remainder
    let padKeys := (List.range padSize).map (padKey padUid)
    let padFields := (List.range padSize).map (padSample templateSample)
    let padTags := List.replicate padSize templateTag
    return (kvBatchPut (padKeys.zip padFields) partition,
      { batch with keys := batch.keys ++ padKeys, tags := batch.tags ++ padTags })

end Algorithm

/-! ## What reads the rows -/

section Readers

variable {K V : Type}

/-- The entries of a tensor field. -/
def entriesOf (name : String) (sample : Sample K V) : List K :=
  match sample.get? name with
  | some (.tensor t) => t.entries
  | _ => []

def uidOf (sample : Sample K V) : String :=
  match sample.get? "uid" with
  | some (.str uid) => uid
  | _ => ""

/-- The width of `response_mask` after `to_padded_tensor`. -/
def responseWidth (rows : List (String × Sample K V)) : Nat :=
  (rows.map fun r => (entriesOf "response_mask" r.2).length).foldr max 0

/-- The padded columns; `rewards` are the token level rewards of a row. -/
def advantageData [Zero K] [DecidableEq K] (rewards : Sample K V → List K)
    (rows : List (String × Sample K V)) (width : Nat) :
    AdvantageData K String rows.length width where
  tokenLevelRewards := fun i t => ((rewards (rows.get i).2)[t.val]?).getD 0
  responseMask := fun i t => ((entriesOf "response_mask" (rows.get i).2)[t.val]?).getD 0 ≠ 0
  uid := fun i => uidOf (rows.get i).2

/-- The rows are padded to `width`; `response_to_nested` cuts each to the length of its mask. -/
def nestedAdvantage [Field K] [DecidableEq K] (sqrt : K → K) (rewards : Sample K V → List K)
    (normAdvByStdInGrpo : Bool) (rows : List (String × Sample K V)) (width : Nat) :
    Except PyErr (List (List K)) := do
  let (advantages, _) ← computeAdvantageForMultiTrajectories sqrt
    (advantageData rewards rows width) (fun i => (rows.get i).1) normAdvByStdInGrpo
  return List.ofFn fun i =>
    (List.ofFn (advantages i)).take (entriesOf "response_mask" (rows.get i).2).length

/-- The advantages `_compute_advantage` writes. -/
def computeAdvantage [Field K] [DecidableEq K] (sqrt : K → K) (rewards : Sample K V → List K)
    (normAdvByStdInGrpo : Bool) (rows : List (String × Sample K V)) :
    Except PyErr (List (List K)) :=
  nestedAdvantage sqrt rewards normAdvByStdInGrpo rows (responseWidth rows)

/-- The rows of the loss matrix; `loss` is the loss of every token of the row with a key. -/
def lossRow [Zero K] {w : Nat} (loss : String → Fin w → K) (row : String × Sample K V) :
    LossRow K w where
  loss := loss row.1
  mask := fun t => ((entriesOf "response_mask" row.2)[t.val]?).getD 0

/-- The numerator of the loss in a mode. -/
def numerator [Field K] [LinearOrder K] {w : Nat} (mode : LossAggMode)
    (loss : String → Fin w → K) (rows : List (String × Sample K V)) : K :=
  (rows.map fun row => rowTerm mode (lossRow loss row)).sum

end Readers

/-! ## Property -/

section Property

variable {K V : Type}

/-- The fields with an entry for each token: how many tokens the tag of a row counts, and the
dimension the tokens lie along. -/
def tokenAligned (tag : Tag) : List (String × Nat × (List Nat → Option Nat)) :=
  [("prompts", tag.promptLen, List.head?),
    ("responses", tag.responseLen, List.head?),
    ("response_mask", tag.responseLen, List.head?),
    ("loss_mask", tag.responseLen, List.head?),
    ("rm_scores", tag.responseLen, List.head?),
    ("rollout_log_probs", tag.responseLen, List.head?),
    ("input_ids", tag.seqLen, List.head?),
    ("attention_mask", tag.seqLen, List.head?),
    ("position_ids", tag.seqLen, List.getLast?),
    ("routed_experts", tag.seqLen, List.head?),
    ("teacher_ids", tag.seqLen, List.head?),
    ("teacher_logprobs", tag.seqLen, List.head?)]

/-- A tensor in the field has `len` entries along its token dimension, if it has one. -/
def HasLength (sample : Sample K V) (name : String) (len : Nat) (axis : List Nat → Option Nat) :
    Prop :=
  ∀ t, sample.get? name = some (.tensor t) → ∀ size, axis t.shape = some size → size = len

def Aligned (tag : Tag) (sample : Sample K V) : Prop :=
  ∀ f ∈ tokenAligned tag, HasLength sample f.1 f.2.1 f.2.2

/-- The rows of the batch are stored, each under a key of its own. -/
structure IsBatch (partition : Dict (Sample K V)) (batch : KVBatchMeta V) : Prop where
  nodup : batch.keys.Nodup
  tags : batch.tags.length = batch.keys.length
  stored : ∀ key ∈ batch.keys, key ∈ partition.keys
  format : ∀ key ∈ batch.keys, ∃ k : RowKey, key = k.format

/-- No row has the new uid yet. -/
structure Fresh (padUid : String) (partition : Dict (Sample K V)) : Prop where
  key : ∀ k : RowKey, k.format ∈ partition.keys → k.uid ≠ padUid
  uid : ∀ key sample, partition.get? key = some sample → sample.get? "uid" ≠ some (.str padUid)

/-- The rows that are in both get the same advantages from both. -/
def SameAdvantages [Field K] [DecidableEq K] (rows rows' : List (String × Sample K V)) : Prop :=
  ∀ sqrt rewards norm advantages,
    computeAdvantage sqrt rewards norm rows = .ok advantages →
    ∃ advantages', computeAdvantage sqrt rewards norm rows' = .ok advantages' ∧
      ∀ (i j : Nat) (row : String × Sample K V), rows[i]? = some row → rows'[j]? = some row →
        advantages'[j]? = advantages[i]?

/-- An added row: its fields have its own length, its response is masked, its uid is new. -/
structure IsNeutral [Zero K] (partition : Dict (Sample K V)) (batch : KVBatchMeta V) (tag : Tag)
    (sample : Sample K V) : Prop where
  aligned : Aligned tag sample
  responseMask : sample.get? "response_mask" = some (.tensor (.full [tag.responseLen] 0))
  lossMask : sample.get? "loss_mask" = some (.tensor (.full [tag.responseLen] 0))
  uid : ∃ uid, sample.get? "uid" = some (.str uid) ∧ ∀ key ∈ batch.keys, ∀ row,
    partition.get? key = some row → row.get? "uid" ≠ some (.str uid)

/-- What the padded batch is to be.  `order` is any order of its rows: the batch is balanced
after it is padded. -/
structure Upsampled [Field K] [LinearOrder K] (batchMultiple : Nat)
    (partition : Dict (Sample K V)) (batch : KVBatchMeta V) (partition' : Dict (Sample K V))
    (batch' : KVBatchMeta V) : Prop where
  size : IsLeast {n | batchMultiple ∣ n ∧ batch.keys.length ≤ n} batch'.keys.length
  tags : batch'.tags.length = batch'.keys.length
  originalKeys : batch.keys <+: batch'.keys
  originalTags : batch.tags <+: batch'.tags
  originalRows : ∀ key ∈ batch.keys, partition'.get? key = partition.get? key
  nodup : batch'.keys.Nodup
  neutral : ∀ row ∈ (batch'.keys.zip batch'.tags).drop batch.keys.length,
    ∃ sample, partition'.get? row.1 = some sample ∧ IsNeutral partition batch row.2 sample
  training : ∀ rows, kvBatchGet partition batch.keys = .ok rows →
    ∀ order, order.Perm batch'.keys →
      ∃ rows', kvBatchGet partition' order = .ok rows' ∧ SameAdvantages rows rows' ∧
        ∀ (mode : LossAggMode) (w : Nat) (loss : String → Fin w → K),
          numerator mode loss rows' = numerator mode loss rows

/-- The teacher fields have two entries, as a padding row has two tokens. -/
def TeacherFits (sample : Sample K V) : Prop :=
  ∀ name ∈ ["teacher_ids", "teacher_logprobs"], HasLength sample name 2 List.head?

end Property

/-! ## Lemmas: the template -/

section Template

variable {K V : Type} [Field K] {sourceTd : Sample K V} {sourceTag : Tag} {eosTokenId : K}
  {name : String}

/-- The other fields are the ones that are set, then the ones of the source. -/
theorem get?_template (hname : name ≠ "multi_modal_inputs") (hrouted : name ≠ "routed_experts") :
    (constructMinimalPaddingTemplate sourceTd sourceTag eosTokenId).1.get? name =
      ((templateFields sourceTd eosTokenId).lookup name).or (sourceTd.get? name) := by
  have hnodup : ((templateFields sourceTd eosTokenId).map Prod.fst).Nodup := by
    simp [templateFields]
  rw [← get?_foldl_insert hnodup sourceTd name]
  unfold constructMinimalPaddingTemplate
  dsimp only
  split
  · rw [get?_insert, if_neg hrouted]
    split
    · rw [get?_insert, if_neg hname]
    · rfl
  · rw [get?_pop, if_neg hrouted]
    split
    · rw [get?_insert, if_neg hname]
    · rfl

theorem routedExperts_template :
    (constructMinimalPaddingTemplate sourceTd sourceTag eosTokenId).1.get? "routed_experts" =
      (buildPaddingRoutedExperts (sourceTd.get? "routed_experts") 2).map .tensor := by
  unfold constructMinimalPaddingTemplate
  dsimp only
  split
  · rename_i t ht
    rw [get?_insert, ht]
    rfl
  · rename_i ht
    rw [get?_pop, ht]
    rfl

omit [Field K] in
theorem get?_padSample {sample : Sample K V} {localIdx : Nat} (h : name ≠ "session_id") :
    (padSample sample localIdx).get? name = sample.get? name := by
  unfold padSample
  split
  · rw [get?_insert, if_neg h]
  · rfl

omit [Field K] in
theorem hasLength_congr {sample sample' : Sample K V} {len : Nat} {axis : List Nat → Option Nat}
    (h : sample.get? name = sample'.get? name) :
    HasLength sample name len axis ↔ HasLength sample' name len axis := by
  unfold HasLength
  rw [h]

omit [Field K] in
theorem hasLength_of_eq {sample : Sample K V} {len : Nat} {axis : List Nat → Option Nat}
    {t : FlatTensor K} (h : sample.get? name = some (.tensor t)) (ht : axis t.shape = some len) :
    HasLength sample name len axis := by
  intro t' ht' size hsize
  rw [h] at ht'
  cases ht'
  exact Option.some.inj (hsize.symm.trans ht)

/-- The position ids end in the two positions of the sequence. -/
theorem getLast?_buildPaddingPositionIds (source : Option (FieldValue K V)) :
    (buildPaddingPositionIds source [1, 1] : FlatTensor K).shape.getLast? = some 2 := by
  unfold buildPaddingPositionIds
  split
  · split
    · rfl
    · exact getLast?_concat
  · rfl

theorem head?_buildPaddingRoutedExperts {source : Option (FieldValue K V)} {t : FlatTensor K}
    {size : Nat} (h : buildPaddingRoutedExperts source 2 = some t)
    (hsize : t.shape.head? = some size) : size = 2 := by
  unfold buildPaddingRoutedExperts at h
  split at h
  · split at h
    · cases h
      cases hsize
    · cases h
      exact (Option.some.inj hsize).symm
  · cases h

end Template

/-! ## Lemmas: the partition -/

section Partition

variable {K V : Type}

section

variable {rows : List (String × Sample K V)} {partition : Dict (Sample K V)}
  (hnodup : (rows.map Prod.fst).Nodup) (hnew : ∀ r ∈ rows, r.1 ∉ partition.keys)
include hnodup hnew

/-- Rows under new keys are stored as they are. -/
theorem get?_kvBatchPut (key : String) :
    (kvBatchPut rows partition).get? key = (rows.lookup key).or (partition.get? key) := by
  rw [← get?_foldl_insert hnodup]
  unfold kvBatchPut
  congr 1
  induction rows generalizing partition with
  | nil => rfl
  | cons r rows ih =>
    rw [map_cons, nodup_cons] at hnodup
    rw [foldl_cons, get?_eq_none_iff.mpr (hnew r mem_cons_self)]
    refine ih hnodup.2 fun r' hr' => ?_
    rw [keys_insert, if_neg (hnew r mem_cons_self), mem_append,
      mem_singleton, not_or]
    exact ⟨hnew r' (mem_cons_of_mem r hr'), fun h =>
      hnodup.1 (h ▸ mem_map_of_mem hr')⟩

theorem get?_kvBatchPut_of_mem {r : String × Sample K V} (hr : r ∈ rows) :
    (kvBatchPut rows partition).get? r.1 = some r.2 := by
  have hlookup : rows.lookup r.1 = some r.2 :=
    get?_eq_some (d := { items := rows, nodup := hnodup }) hr
  rw [get?_kvBatchPut hnodup hnew, hlookup, Option.some_or]

theorem get?_kvBatchPut_of_stored {key : String} (hkey : key ∈ partition.keys) :
    (kvBatchPut rows partition).get? key = partition.get? key := by
  have hnone : rows.lookup key = none := by grind
  rw [get?_kvBatchPut hnodup hnew, hnone, Option.none_or]

end

/-- A key with its row. -/
def rowOf (partition : Dict (Sample K V)) (key : String) : String × Sample K V :=
  (key, (partition.get? key).getD Dict.empty)

theorem kvBatchGet_eq {partition : Dict (Sample K V)} {keys : List String}
    (h : ∀ key ∈ keys, key ∈ partition.keys) :
    kvBatchGet partition keys = .ok (keys.map (rowOf partition)) := by
  apply mapM_eq_ok_map
  intro key hkey
  obtain ⟨sample, hsample⟩ := mem_keys_iff.mp (h key hkey)
  simp only [rowOf, hsample, Option.getD_some]

theorem padKey_eq_format (padUid : String) (localIdx : Nat) :
    padKey padUid localIdx = (RowKey.mk padUid localIdx 0).format := by
  rw [← String.toList_inj]
  simp [padKey, RowKey.format, toString]

theorem padKey_injective (padUid : String) : Injective (padKey padUid) := by
  intro i j h
  rw [padKey_eq_format, padKey_eq_format] at h
  exact congrArg RowKey.session (RowKey.format_injective h)

end Partition

/-! ## Lemmas: what the added rows change -/

section Training

variable {K V : Type} {padUid : String} {rows pads rows' : List (String × Sample K V)}

/-- A row of the batch, as it is told from the added ones. -/
def IsOriginal (padUid : String) (row : String × Sample K V) : Prop :=
  (∃ k : RowKey, row.1 = k.format ∧ k.uid ≠ padUid) ∧ uidOf row.2 ≠ padUid

/-- What training reads of an added row. -/
structure IsPad [Zero K] (padUid : String) (row : String × Sample K V) : Prop where
  key : ∃ localIdx, row.1 = padKey padUid localIdx
  uid : uidOf row.2 = padUid
  mask : entriesOf "response_mask" row.2 = [0]

theorem numerator_eq [Field K] [LinearOrder K] (hpads : ∀ r ∈ pads, IsPad padUid r)
    (hperm : rows'.Perm (rows ++ pads)) {w : Nat} (mode : LossAggMode)
    (loss : String → Fin w → K) : numerator mode loss rows' = numerator mode loss rows := by
  have hzero : ∀ r ∈ pads, rowTerm mode (lossRow loss r) = 0 := by
    intro r hr
    have hmask : ∀ t : Fin w, (lossRow loss r).mask t = 0 := by
      intro t
      show ((entriesOf "response_mask" r.2)[t.val]?).getD 0 = 0
      rw [(hpads r hr).mask]
      rcases t.val with _ | n <;> rfl
    have hseq : (lossRow loss r).seqMask = 0 := by
      simp [LossRow.seqMask, LossRow.maskSum, hmask]
    cases mode <;> simp [rowTerm, maskedEntry, hmask, hseq]
  unfold numerator
  rw [(hperm.map _).sum_eq, map_append, map_congr_left hzero]
  simp

theorem responseWidth_eq [Zero K] (hpads : ∀ r ∈ pads, IsPad padUid r)
    (hperm : rows'.Perm (rows ++ pads)) (hpos : 0 < responseWidth rows) :
    responseWidth rows' = responseWidth rows := by
  have hfold : ∀ rows : List (String × Sample K V), ∀ n, responseWidth rows ≤ n ↔
      ∀ r ∈ rows, (entriesOf "response_mask" r.2).length ≤ n := by
    intro rows n
    induction rows with
    | nil => simp [responseWidth]
    | cons r rows ih =>
      rw [forall_mem_cons, ← ih]
      exact max_le_iff
  have hle : ∀ n, 0 < n → (responseWidth rows' ≤ n ↔ responseWidth rows ≤ n) := by
    intro n hn
    rw [hfold, hfold]
    constructor
    · exact fun h r hr => h r (hperm.mem_iff.mpr (mem_append_left _ hr))
    · intro h r hr
      rcases mem_append.mp (hperm.mem_iff.mp hr) with hr | hr
      · exact h r hr
      · rw [(hpads r hr).mask]
        exact hn
  apply Nat.le_antisymm ((hle _ hpos).mpr (Nat.le_refl _))
  rw [hfold]
  exact fun r hr => (hfold rows' _).mp (Nat.le_refl _) r
    (hperm.mem_iff.mpr (mem_append_left _ hr))

theorem sameAdvantages [Field K] [DecidableEq K] (hrows : ∀ r ∈ rows, IsOriginal padUid r)
    (hpads : ∀ r ∈ pads, IsPad padUid r) (hperm : rows'.Perm (rows ++ pads))
    (hnodup : (rows'.map Prod.fst).Nodup) : SameAdvantages rows rows' := by
  intro sqrt rewards norm advantages hadvantages
  obtain ⟨⟨out, returns⟩, hout, hlist⟩ := bind_eq_ok.mp hadvantages
  obtain rfl := Except.ok.inj hlist
  have hwidth := responseWidth_eq hpads hperm (responseLength_pos hout)
  have hformat : ∀ i : Fin rows'.length, ∃ k : RowKey, (rows'.get i).1 = k.format := by
    intro i
    rcases mem_append.mp (hperm.mem_iff.mp (get_mem rows' i)) with hi | hi
    · obtain ⟨⟨k, hk, -⟩, -⟩ := hrows _ hi
      exact ⟨k, hk⟩
    · obtain ⟨localIdx, hkey⟩ := (hpads _ hi).key
      exact ⟨_, hkey.trans (padKey_eq_format padUid localIdx)⟩
  choose keys hkeys using hformat
  have hinj : ∀ i j : Fin rows'.length, (rows'.get i).1 = (rows'.get j).1 → i = j :=
    fun i j h => (hnodup.of_map Prod.fst).injective_get
      (inj_on_of_nodup_map hnodup (get_mem _ _) (get_mem _ _) h)
  have hplace : ∀ i : Fin rows.length, ∃ j : Fin rows'.length, rows'.get j = rows.get i := fun i =>
    get_of_mem (hperm.mem_iff.mpr (mem_append_left _ (get_mem rows i)))
  choose place hplace using hplace
  have hkeyInj : Injective keys := fun i j h =>
    hinj i j (by rw [hkeys i, hkeys j, h])
  have hnodupRows : rows.Nodup :=
    (nodup_append.mp (hperm.nodup_iff.mp (hnodup.of_map Prod.fst))).1
  have hplaceInj : Injective place := fun i j h =>
    hnodupRows.injective_get ((hplace i).symm.trans ((congrArg rows'.get h).trans (hplace j)))
  -- a row that is not in place is an added one
  have hother : ∀ j, (∀ i, place i ≠ j) → IsPad padUid (rows'.get j) := by
    intro j hj
    rcases mem_append.mp (hperm.mem_iff.mp (get_mem rows' j)) with hmem | hmem
    · obtain ⟨i, hi⟩ := get_of_mem hmem
      exact absurd ((hnodup.of_map Prod.fst).injective_get ((hplace i).trans hi)) (hj i)
    · exact hpads _ hmem
  have horiginal : ∀ i, (keys (place i)).uid ≠ padUid := by
    intro i
    obtain ⟨⟨k, hk, huid⟩, -⟩ := hrows _ (get_mem rows i)
    rw [← hplace i, hkeys] at hk
    rwa [RowKey.format_injective hk]
  have hembeds : Embeds ⟨place, hplaceInj⟩ (fun i => keys (place i))
      (advantageData rewards rows (responseWidth rows)) keys
      (advantageData rewards rows' (responseWidth rows)) := by
    refine ⟨fun _ => rfl, fun i => ?_, fun i => ?_, fun i => ?_, fun j hj i heq => ?_,
      fun j hj i heq => ?_⟩
    · simp only [advantageData, Function.Embedding.coeFn_mk, hplace]
    · simp only [advantageData, Function.Embedding.coeFn_mk, hplace]
    · simp only [advantageData, Function.Embedding.coeFn_mk, hplace]
    · obtain ⟨localIdx, hkey⟩ := (hother j hj).key
      rw [hkeys, padKey_eq_format] at hkey
      exact horiginal i (heq.symm.trans (congrArg RowKey.uid (RowKey.format_injective hkey)))
    · exact (hrows _ (get_mem rows i)).2 (heq.symm.trans (hother j hj).uid)
  have hrowKeys : (fun i => (rows.get i).1) = fun i => (keys (place i)).format := by grind
  rw [hrowKeys] at hout
  obtain ⟨out', hout', heq⟩ := hembeds.advantages_eq hkeyInj sqrt norm hout
  have hresult : computeAdvantage sqrt rewards norm rows' = .ok (ofFn fun i =>
      (ofFn (out' i)).take (entriesOf "response_mask" (rows'.get i).2).length) := by
    unfold computeAdvantage
    rw [hwidth]
    unfold nestedAdvantage
    rw [show (fun i => (rows'.get i).1) = fun i => (keys i).format from funext hkeys,
      hout']
    rfl
  refine ⟨_, hresult, fun i j row hi hj => ?_⟩
  obtain ⟨hlt, rfl⟩ := List.getElem?_eq_some_iff.mp hi
  obtain ⟨hlt', hrow⟩ := List.getElem?_eq_some_iff.mp hj
  have hij : place ⟨i, hlt⟩ = ⟨j, hlt'⟩ :=
    (hnodup.of_map Prod.fst).injective_get ((hplace ⟨i, hlt⟩).trans hrow.symm)
  have hvalue := heq ⟨i, hlt⟩
  rw [Function.Embedding.coeFn_mk, hij] at hvalue
  rw [List.getElem?_ofFn, List.getElem?_ofFn, dif_pos hlt, dif_pos hlt', hvalue]
  simp only [get_eq_getElem, hrow]

end Training

/-! ## Lemmas: the added rows -/

section Added

variable {K V : Type} [Field K] {sourceTd : Sample K V} {sourceTag : Tag} {eosTokenId : K}
  {padUid : String} {localIdx : Nat}

/-- An added row, for a source and a number. -/
def addedSample (sourceTd : Sample K V) (sourceTag : Tag) (eosTokenId : K) (padUid : String)
    (localIdx : Nat) : Sample K V :=
  padSample ((constructMinimalPaddingTemplate sourceTd sourceTag eosTokenId).1.insert "uid"
    (.str padUid)) localIdx

theorem get?_addedSample {name : String} (hsession : name ≠ "session_id") (huid : name ≠ "uid") :
    (addedSample sourceTd sourceTag eosTokenId padUid localIdx).get? name =
      (constructMinimalPaddingTemplate sourceTd sourceTag eosTokenId).1.get? name := by
  unfold addedSample
  rw [get?_padSample hsession, get?_insert, if_neg huid]

theorem uid_addedSample : (addedSample sourceTd sourceTag eosTokenId padUid localIdx).get? "uid" =
      some (.str padUid) := by
  unfold addedSample
  rw [get?_padSample (by decide), get?_insert, if_pos rfl]

/-- The other names are looked up among what the template sets, then in the source. -/
theorem get?_addedSample_eq {name : String}
    (h : name ∉ ["session_id", "uid", "multi_modal_inputs", "routed_experts"]) :
    (addedSample sourceTd sourceTag eosTokenId padUid localIdx).get? name =
      ((templateFields sourceTd eosTokenId).lookup name).or (sourceTd.get? name) := by
  simp only [mem_cons, not_mem_nil, or_false, not_or] at h
  rw [get?_addedSample h.1 h.2.1, get?_template h.2.2.1 h.2.2.2]

theorem mask_addedSample :
    (addedSample sourceTd sourceTag eosTokenId padUid localIdx).get? "response_mask" =
        some (.tensor (.full [1] 0)) ∧
      (addedSample sourceTd sourceTag eosTokenId padUid localIdx).get? "loss_mask" =
        some (.tensor (.full [1] 0)) := by
  constructor <;> (rw [get?_addedSample_eq (by decide)]; simp [templateFields, lookup_cons])

theorem isPad_addedSample : IsPad padUid (padKey padUid localIdx,
      addedSample sourceTd sourceTag eosTokenId padUid localIdx) where
  key := ⟨localIdx, rfl⟩
  uid := by simp only [uidOf, uid_addedSample]
  mask := by
    simp only [entriesOf, mask_addedSample.1]
    rfl

/-- Of the token-aligned fields only those of the teacher are left as they are. -/
theorem aligned_addedSample_iff :
    Aligned (constructMinimalPaddingTemplate sourceTd sourceTag eosTokenId).2
        (addedSample sourceTd sourceTag eosTokenId padUid localIdx) ↔ TeacherFits sourceTd := by
  have hset : ∀ name len axis, ∀ t : FlatTensor K,
      name ∉ ["session_id", "uid", "multi_modal_inputs", "routed_experts"] →
      (templateFields sourceTd eosTokenId).lookup name = some (.tensor t) →
      axis t.shape = some len →
      HasLength (addedSample sourceTd sourceTag eosTokenId padUid localIdx) name len axis := by
    intro name len axis t hname hlookup hshape
    refine hasLength_of_eq ?_ hshape
    rw [get?_addedSample_eq hname, hlookup]
    rfl
  have hrouted : HasLength (addedSample sourceTd sourceTag eosTokenId padUid localIdx)
      "routed_experts" 2 List.head? := by
    intro t ht size hsize
    rw [get?_addedSample (by decide) (by decide), routedExperts_template] at ht
    obtain ⟨t', hbuild, ht'⟩ := Option.map_eq_some_iff.mp ht
    cases ht'
    exact head?_buildPaddingRoutedExperts hbuild hsize
  have hteacher : ∀ name ∈ ["teacher_ids", "teacher_logprobs"],
      (HasLength (addedSample sourceTd sourceTag eosTokenId padUid localIdx) name 2 List.head? ↔
        HasLength sourceTd name 2 List.head?) := by
    intro name hname
    apply hasLength_congr
    simp only [mem_cons, not_mem_nil, or_false] at hname
    rcases hname with rfl | rfl
    · rw [get?_addedSample_eq (by decide)]
      simp [templateFields, lookup_cons]
    · rw [get?_addedSample_eq (by decide)]
      simp [templateFields, lookup_cons]
  have htag : (constructMinimalPaddingTemplate sourceTd sourceTag eosTokenId).2 =
      { sourceTag with isPadding := true, promptLen := 1, responseLen := 1, seqLen := 2 } := rfl
  unfold TeacherFits Aligned tokenAligned
  rw [htag]
  simp only [forall_mem_cons]
  rw [hteacher "teacher_ids" (by decide), hteacher "teacher_logprobs" (by decide)]
  constructor
  · simp
  · intro h
    refine ⟨?_, ?_, ?_, ?_, ?_, ?_, ?_, ?_, ?_, hrouted, h.1, h.2.1, fun _ h => (nomatch h)⟩
    · exact hset _ _ _ (.full [1] eosTokenId) (by decide) (by simp [templateFields]) rfl
    · exact hset _ _ _ (.full [1] eosTokenId) (by decide) (by simp [templateFields, lookup_cons]) rfl
    · exact hset _ _ _ (.full [1] 0) (by decide) (by simp [templateFields, lookup_cons]) rfl
    · exact hset _ _ _ (.full [1] 0) (by decide) (by simp [templateFields, lookup_cons]) rfl
    · exact hset _ _ _ (.full [1] 0) (by decide) (by simp [templateFields, lookup_cons]) rfl
    · exact hset _ _ _ (.full [1] 0) (by decide) (by simp [templateFields, lookup_cons]) rfl
    · exact hset _ _ _ (.full [2] eosTokenId) (by decide) (by simp [templateFields, lookup_cons]) rfl
    · exact hset _ _ _ (.vector [1, 1]) (by decide) (by simp [templateFields, lookup_cons]) rfl
    · exact hset _ _ _ _ (by decide) (by simp [templateFields, lookup_cons])
        (getLast?_buildPaddingPositionIds (sourceTd.get? "position_ids"))

end Added

/-! ## Top theorem -/

section Top

variable {K V : Type} [Field K] [LinearOrder K] {uuid4Hex : String}
  {partition : Dict (Sample K V)} {batch : KVBatchMeta V} {batchMultiple : Nat}

theorem isOriginal_rowOf {K V : Type} {uuid4Hex : String} {partition : Dict (Sample K V)}
    {batch : KVBatchMeta V} (hbatch : IsBatch partition batch)
    (hfresh : Fresh ("pad" ++ uuid4Hex) partition) {key : String} (hkey : key ∈ batch.keys) :
    IsOriginal ("pad" ++ uuid4Hex) (rowOf partition key) := by
  obtain ⟨k, rfl⟩ := hbatch.format key hkey
  have hstored := hbatch.stored _ hkey
  refine ⟨⟨k, rfl, hfresh.key k hstored⟩, ?_⟩
  obtain ⟨sample, hsample⟩ := mem_keys_iff.mp hstored
  have huid := hfresh.uid _ _ hsample
  simp only [rowOf, uidOf]
  split
  · grind
  · simp

/-- The rows of a padded batch, in any order. -/
theorem training_of_added {pads : List (String × Sample K V)} {partition' : Dict (Sample K V)}
    (hbatch : IsBatch partition batch) (hfresh : Fresh ("pad" ++ uuid4Hex) partition)
    (hpads : ∀ r ∈ pads, IsPad ("pad" ++ uuid4Hex) r)
    (hnodup : (batch.keys ++ pads.map Prod.fst).Nodup)
    (horiginal : ∀ key ∈ batch.keys, partition'.get? key = partition.get? key)
    (hadded : ∀ r ∈ pads, partition'.get? r.1 = some r.2)
    {rows : List (String × Sample K V)} (hrows : kvBatchGet partition batch.keys = .ok rows)
    {order : List String} (horder : order.Perm (batch.keys ++ pads.map Prod.fst)) :
    ∃ rows', kvBatchGet partition' order = .ok rows' ∧ SameAdvantages rows rows' ∧
      ∀ (mode : LossAggMode) (w : Nat) (loss : String → Fin w → K),
        numerator mode loss rows' = numerator mode loss rows := by
  rw [kvBatchGet_eq hbatch.stored] at hrows
  obtain rfl := Except.ok.inj hrows
  have hstored : ∀ key ∈ order, key ∈ partition'.keys := by
    intro key hkey
    rw [mem_keys_iff]
    rcases mem_append.mp (horder.mem_iff.mp hkey) with hkey | hkey
    · rw [horiginal key hkey]
      exact mem_keys_iff.mp (hbatch.stored key hkey)
    · grind
  have hrows : batch.keys.map (rowOf partition') = batch.keys.map (rowOf partition) :=
    map_congr_left fun key hkey => by rw [rowOf, rowOf, horiginal key hkey]
  have hpadRows : (pads.map Prod.fst).map (rowOf partition') = pads := by
    rw [map_map]
    refine (map_congr_left fun r hr => ?_).trans (map_id pads)
    simp only [comp_apply, rowOf, hadded r hr, Option.getD_some, id]
  have hperm : (order.map (rowOf partition')).Perm
      (batch.keys.map (rowOf partition) ++ pads) := by grind
  have hkeys : (order.map (rowOf partition')).map Prod.fst = order := by
    rw [map_map]
    exact map_id order
  refine ⟨_, kvBatchGet_eq hstored, ?_, fun mode w loss => numerator_eq hpads hperm mode loss⟩
  refine sameAdvantages (fun r hr => ?_) hpads hperm (by
    rw [hkeys]
    exact horder.nodup_iff.mpr hnodup)
  obtain ⟨key, hkey, rfl⟩ := mem_map.mp hr
  exact isOriginal_rowOf hbatch hfresh hkey

theorem upsampled_of_dvd (hbatch : IsBatch partition batch)
    (hfresh : Fresh ("pad" ++ uuid4Hex) partition) (hdvd : batchMultiple ∣ batch.keys.length) :
    Upsampled batchMultiple partition batch partition batch where
  size := ⟨⟨hdvd, Nat.le_refl _⟩, fun _ h => h.2⟩
  tags := hbatch.tags
  originalKeys := prefix_refl _
  originalTags := prefix_refl _
  originalRows := fun _ _ => rfl
  nodup := hbatch.nodup
  neutral := by
    rw [drop_eq_nil_of_le (by rw [length_zip]; exact Nat.min_le_left _ _)]
    exact fun _ h => (nomatch h)
  training := fun _ hrows order horder =>
    training_of_added hbatch hfresh
      (fun _ h => (nomatch h) : ∀ r ∈ ([] : List (String × Sample K V)), _)
      ((append_nil batch.keys).symm ▸ hbatch.nodup) (fun _ _ => rfl)
      (fun _ h => (nomatch h)) hrows
      ((append_nil batch.keys).symm ▸ horder)

/-- The rows that are added. -/
def addedRows (sourceTd : Sample K V) (sourceTag : Tag) (eosTokenId : K) (padUid : String)
    (padSize : Nat) : List (String × Sample K V) :=
  (List.range padSize).map fun i =>
    (padKey padUid i, addedSample sourceTd sourceTag eosTokenId padUid i)

omit [LinearOrder K] in
theorem upsample_eq (uuid4Hex : String) (hbatch : IsBatch partition batch) (eosTokenId : K)
    (hmultiple : 1 ≤ batchMultiple) (hdvd : ¬batchMultiple ∣ batch.keys.length) :
    ∃ key sourceTd sourceTag, batch.keys.head? = some key ∧ partition.get? key = some sourceTd ∧
      let padSize := batchMultiple - batch.keys.length % batchMultiple
      let pads := addedRows sourceTd sourceTag eosTokenId ("pad" ++ uuid4Hex) padSize
      upsampleBatchToDivisibleSize uuid4Hex partition batch batchMultiple eosTokenId =
        .ok (kvBatchPut pads partition,
          { batch with
            keys := batch.keys ++ pads.map Prod.fst
            tags := batch.tags ++ replicate padSize
              (constructMinimalPaddingTemplate sourceTd sourceTag eosTokenId).2 }) := by
  have hne : batch.keys.length % batchMultiple ≠ 0 := fun h => hdvd (Nat.dvd_of_mod_eq_zero h)
  obtain ⟨key, keys, hkeys⟩ := exists_cons_of_ne_nil (l := batch.keys) fun h => by
    rw [h] at hne
    exact hne rfl
  obtain ⟨sourceTag, tags, htags⟩ := exists_cons_of_length_eq_add_one
    (hbatch.tags.trans (by rw [hkeys, length_cons]))
  obtain ⟨sourceTd, hsource⟩ := mem_keys_iff.mp
    (hbatch.stored key (hkeys ▸ mem_cons_self))
  refine ⟨key, sourceTd, sourceTag, by rw [hkeys]; rfl, hsource, ?_⟩
  have hget : kvBatchGet partition [key] = .ok [(key, sourceTd)] := by
    simp [kvBatchGet, hsource]
  unfold upsampleBatchToDivisibleSize
  dsimp only
  rw [if_neg (Nat.ne_of_gt hmultiple), if_neg hne]
  have hkey : pyGetItem batch.keys 0 = .ok key := by rw [hkeys]; rfl
  have htag : pyGetItem batch.tags 0 = .ok sourceTag := by rw [htags]; rfl
  have hrow : pyGetItem [(key, sourceTd)] 0 = .ok (key, sourceTd) := rfl
  rw [hkey, ok_bind, hget, ok_bind, hrow, ok_bind, htag, ok_bind,
    zip_map', addedRows, map_map]
  rfl

/-- When rows are added, the teacher fields of the first row decide. -/
theorem upsampled_iff_teacherFits (hbatch : IsBatch partition batch)
    (hfresh : Fresh ("pad" ++ uuid4Hex) partition) (eosTokenId : K) (hmultiple : 1 ≤ batchMultiple)
    (hdvd : ¬batchMultiple ∣ batch.keys.length) :
    (∃ partition' batch', upsampleBatchToDivisibleSize uuid4Hex partition batch batchMultiple
        eosTokenId = .ok (partition', batch') ∧
      Upsampled batchMultiple partition batch partition' batch') ↔
    ∀ key sample, batch.keys.head? = some key → partition.get? key = some sample →
      TeacherFits sample := by
  obtain ⟨key, sourceTd, sourceTag, hhead, hsource, hresult⟩ :=
    upsample_eq uuid4Hex hbatch eosTokenId hmultiple hdvd
  set padUid := "pad" ++ uuid4Hex
  set template := constructMinimalPaddingTemplate sourceTd sourceTag eosTokenId
  set padSize := batchMultiple - batch.keys.length % batchMultiple
  set pads := addedRows sourceTd sourceTag eosTokenId padUid padSize
  have hmod := Nat.mod_lt batch.keys.length hmultiple
  have hpads : ∀ r ∈ pads, ∃ i, r = (padKey padUid i,
      addedSample sourceTd sourceTag eosTokenId padUid i) := by
    intro r hr
    obtain ⟨i, -, rfl⟩ := mem_map.mp hr
    exact ⟨i, rfl⟩
  have hisPad : ∀ r ∈ pads, IsPad padUid r := by
    intro r hr
    obtain ⟨i, rfl⟩ := hpads r hr
    exact isPad_addedSample
  have hlength : (pads.map Prod.fst).length = padSize := by simp [pads, addedRows]
  have hpadKeys : (pads.map Prod.fst).Nodup := by
    rw [show pads.map Prod.fst = (range padSize).map (padKey padUid) from map_map]
    exact nodup_range.map (padKey_injective padUid)
  have hnew : ∀ r ∈ pads, r.1 ∉ partition.keys := by
    intro r hr hmem
    obtain ⟨i, rfl⟩ := hpads r hr
    rw [padKey_eq_format] at hmem
    exact hfresh.key _ hmem rfl
  have hnodup : (batch.keys ++ pads.map Prod.fst).Nodup := by
    refine nodup_append.mpr ⟨hbatch.nodup, hpadKeys, fun key hkey key' hkey' => ?_⟩
    rintro rfl
    obtain ⟨r, hr, rfl⟩ := mem_map.mp hkey'
    exact hnew r hr (hbatch.stored _ hkey)
  have hadded := fun r (hr : r ∈ pads) => get?_kvBatchPut_of_mem hpadKeys hnew hr
  have horiginal := fun key (hkey : key ∈ batch.keys) =>
    get?_kvBatchPut_of_stored hpadKeys hnew (hbatch.stored key hkey)
  have hzip : ((batch.keys ++ pads.map Prod.fst).zip
      (batch.tags ++ replicate padSize template.2)).drop batch.keys.length =
        (pads.map Prod.fst).zip (replicate padSize template.2) := by
    rw [zip_append hbatch.tags.symm, drop_left' (by
      rw [length_zip, hbatch.tags, Nat.min_self])]
  have hcond : (∀ key' sample, batch.keys.head? = some key' → partition.get? key' = some sample →
      TeacherFits sample) ↔ TeacherFits sourceTd := by grind
  rw [hcond]
  constructor
  · rintro ⟨partition', batch', hok, h⟩
    obtain ⟨rfl, rfl⟩ := Prod.mk.inj (Except.ok.inj (hresult.symm.trans hok))
    have hneutral := h.neutral
    rw [hzip] at hneutral
    -- the first added row
    have hpos : 0 < padSize := by omega
    have hmem : (padKey padUid 0, addedSample sourceTd sourceTag eosTokenId padUid 0) ∈ pads :=
      mem_map.mpr ⟨0, mem_range.mpr hpos, rfl⟩
    have hrow : (padKey padUid 0, template.2) ∈
        (pads.map Prod.fst).zip (replicate padSize template.2) := by
      obtain ⟨n, hn⟩ := Nat.exists_eq_add_one_of_ne_zero (Nat.ne_of_gt hpos)
      rw [show pads.map Prod.fst = (range padSize).map (padKey padUid) from map_map, hn,
        range_succ_eq_map]
      exact mem_cons_self
    obtain ⟨sample, hsample, hrow⟩ := hneutral _ hrow
    obtain rfl := Option.some.inj ((hadded _ hmem).symm.trans hsample)
    exact aligned_addedSample_iff.mp hrow.aligned
  · intro hteacher
    refine ⟨_, _, hresult, ?_⟩
    constructor
    · constructor
      · refine ⟨?_, length_append ▸ Nat.le_add_right _ _⟩
        rw [length_append, hlength]
        exact ⟨batch.keys.length / batchMultiple + 1, by
          have hdiv := Nat.div_add_mod batch.keys.length batchMultiple
          rw [Nat.mul_add]
          omega⟩
      · rintro n ⟨⟨q, rfl⟩, hn⟩
        rw [length_append, hlength]
        have hdiv := Nat.div_add_mod batch.keys.length batchMultiple
        have hlt : batch.keys.length / batchMultiple < q := by
          rw [Nat.div_lt_iff_lt_mul hmultiple, Nat.mul_comm]
          exact Nat.lt_of_le_of_ne hn fun heq => hdvd ⟨q, heq⟩
        have hmul := Nat.mul_le_mul_left batchMultiple hlt
        rw [Nat.mul_succ] at hmul
        omega
    · rw [length_append, length_append, hlength, hbatch.tags, length_replicate]
    · exact prefix_append _ _
    · exact prefix_append _ _
    · exact horiginal
    · exact hnodup
    · dsimp only
      rw [hzip]
      rintro ⟨key, tag⟩ hmem
      obtain ⟨hkey, htag⟩ := of_mem_zip hmem
      obtain rfl := eq_of_mem_replicate htag
      obtain ⟨r, hr, rfl⟩ := mem_map.mp hkey
      refine ⟨r.2, hadded r hr, ?_⟩
      obtain ⟨i, rfl⟩ := hpads r hr
      exact ⟨aligned_addedSample_iff.mpr hteacher, mask_addedSample.1, mask_addedSample.2,
        padUid, uid_addedSample, fun key _ row hrow => hfresh.uid key row hrow⟩
    · exact fun rows hrows order horder =>
        training_of_added hbatch hfresh hisPad hnodup horiginal hadded hrows horder

/-- A padded batch is what it is to be exactly when no rows are added or the teacher fields of
its first row have two entries. -/
theorem upsampled_iff (uuid4Hex : String) (partition : Dict (Sample K V)) (batch : KVBatchMeta V)
    (batchMultiple : Nat) (eosTokenId : K) (hmultiple : 1 ≤ batchMultiple)
    (hbatch : IsBatch partition batch) (hfresh : Fresh ("pad" ++ uuid4Hex) partition) :
    (∃ partition' batch', upsampleBatchToDivisibleSize uuid4Hex partition batch batchMultiple
        eosTokenId = .ok (partition', batch') ∧
      Upsampled batchMultiple partition batch partition' batch') ↔
    batchMultiple ∣ batch.keys.length ∨
      ∀ key sample, batch.keys.head? = some key → partition.get? key = some sample →
        TeacherFits sample := by
  by_cases hdvd : batchMultiple ∣ batch.keys.length
  · refine iff_of_true ⟨partition, batch, ?_, upsampled_of_dvd hbatch hfresh hdvd⟩ (.inl hdvd)
    unfold upsampleBatchToDivisibleSize
    rw [if_neg (Nat.ne_of_gt hmultiple), if_pos (Nat.mod_eq_zero_of_dvd hdvd)]
  · rw [or_iff_right hdvd]
    exact upsampled_iff_teacherFits hbatch hfresh eosTokenId hmultiple hdvd

end Top

/-! ### One row, two data parallel ranks -/

/-- A row of one prompt and two response tokens. -/
def soloRow (teacher : List (String × FieldValue ℚ Unit)) : Sample ℚ Unit :=
  Dict.ofItems ([("uid", .str "u"), ("response_mask", .tensor (.full [2] 1)),
    ("rm_scores", .tensor (.full [2] 1))] ++ teacher)

def soloPartition (teacher : List (String × FieldValue ℚ Unit)) : Dict (Sample ℚ Unit) :=
  Dict.empty.insert "u_0_0" (soloRow teacher)

def soloBatch : KVBatchMeta Unit where
  keys := ["u_0_0"]
  tags := [⟨1, "success", 1, 2, 3, false⟩]
  partitionId := "train"
  fields := none
  extraInfo := ()

theorem isBatch_solo (teacher : List (String × FieldValue ℚ Unit)) :
    IsBatch (soloPartition teacher) soloBatch where
  nodup := by decide
  tags := rfl
  stored := fun _ h => h
  format := fun key h => ⟨⟨"u", 0, 0⟩, (mem_singleton.mp h).trans (by decide)⟩

theorem fresh_solo {teacher : List (String × FieldValue ℚ Unit)}
    (huid : (soloRow teacher).get? "uid" ≠ some (.str "pad7")) :
    Fresh "pad7" (soloPartition teacher) where
  key := by
    intro k hk
    have heq : k.format = (RowKey.mk "u" 0 0).format :=
      (mem_singleton.mp hk : k.format = "u_0_0").trans (by decide)
    rw [RowKey.format_injective heq]
    decide
  uid := by
    intro key sample h
    rw [soloPartition, get?_insert] at h
    split at h
    · grind
    · cases h

/-- Without teacher fields the batch is padded as it is to be. -/
theorem upsampled_iff_solo :
    ∃ partition' batch', upsampleBatchToDivisibleSize "7" (soloPartition []) soloBatch 2 0 =
        .ok (partition', batch') ∧
      Upsampled 2 (soloPartition []) soloBatch partition' batch' := by
  refine (upsampled_iff "7" (soloPartition []) soloBatch 2 0 (by decide) (isBatch_solo [])
    (fresh_solo (by simp [soloRow, Dict.ofItems, Dict.get?_insert]))).mpr (.inr ?_)
  intro key sample hkey hsample name hname t ht
  obtain rfl := Option.some.inj hkey
  obtain rfl := Option.some.inj hsample
  simp only [mem_cons, not_mem_nil, or_false] at hname
  rcases hname with rfl | rfl <;> cases ht

/-- The row stores the ids of a teacher for its three tokens. -/
theorem not_upsampled_teacher :
    ¬∀ (uuid4Hex : String) (partition : Dict (Sample ℚ Unit)) (batch : KVBatchMeta Unit)
      (batchMultiple : Nat) (eosTokenId : ℚ), 1 ≤ batchMultiple → IsBatch partition batch →
      Fresh ("pad" ++ uuid4Hex) partition →
      ∃ partition' batch', upsampleBatchToDivisibleSize uuid4Hex partition batch batchMultiple
          eosTokenId = .ok (partition', batch') ∧
        Upsampled batchMultiple partition batch partition' batch' := by
  intro h
  let teacher : List (String × FieldValue ℚ Unit) :=
    [("teacher_ids", .tensor (.full [3, 1] 5))]
  have hfresh : Fresh ("pad" ++ "7") (soloPartition teacher) :=
    fresh_solo (by simp [soloRow, teacher, Dict.ofItems, Dict.get?_insert])
  have hfits := (upsampled_iff_teacherFits (isBatch_solo teacher) hfresh 0 (by decide)
    (by decide)).mp (h "7" _ soloBatch 2 0 (by decide) (isBatch_solo teacher) hfresh)
  have hlength := hfits "u_0_0" (soloRow teacher) rfl rfl "teacher_ids" mem_cons_self
    (.full [3, 1] 5) rfl 3 rfl
  exact absurd hlength (by decide)

end Verl.BatchPadding
