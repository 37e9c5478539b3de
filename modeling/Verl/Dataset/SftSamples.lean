import Verl.Lib.Dict
import Verl.Lib.Masked
import Verl.Lib.PySlice

/-! # Samples of the multi-turn SFT dataset (`verl/utils/dataset/multiturn_sft_dataset.py`,
`dataset_utils.py`)

`MultiTurnSFTDataset.__getitem__` ends by padding and truncating the tokens of a conversation;
`SFTTensorCollator` collates the samples that are not padded.

    `NO_PADDING` agrees with `RIGHT`
      ↔ the tokens fit, or the truncation is not `left`             (agrees_iff)
    the samples are collated in every order
      ↔ all of them have multi-modal inputs, or none has            (collates_perm_iff)
-/

namespace Verl.SftDataset

open List

/-! ## Algorithm -/

inductive Truncation where
  | left
  | right
  | error
  deriving DecidableEq

structure Dataset where
  maxLength : Nat
  truncation : Truncation
  padTokenId : Option Nat
  /-- The processor is one of the Qwen-VL series. -/
  qwenVl : Bool

/-- A tokenized conversation; `μ` is the type of its multi-modal inputs. -/
structure Item (μ : Type) where
  inputIds : List Nat
  attentionMask : List Nat
  lossMask : List Nat
  /-- `get_rope_index`. -/
  visionPositionIds : Fin 3 → List Nat
  multiModalInputs : Option μ
  attentionMask_eq : attentionMask = replicate inputIds.length 1
  length_lossMask : lossMask.length = inputIds.length
  length_vision : ∀ i, (visionPositionIds i).length = inputIds.length

/-- A tensor of one dimension, or of rows. -/
inductive Tensor where
  | vector (xs : List Nat)
  | matrix (rows : List (List Nat))

namespace Tensor

/-- An operation along the last dimension. -/
def mapLast (f : List Nat → List Nat) : Tensor → Tensor
  | vector xs => vector (f xs)
  | matrix rows => matrix (rows.map f)

/-- The dimension in front of the last one. -/
def leading : Tensor → Option Nat
  | vector _ => none
  | matrix rows => some rows.length

end Tensor

/-- What `NO_PADDING` returns. -/
structure Sample (μ : Type) where
  inputIds : List Nat
  positionIds : Tensor
  lossMask : List Nat
  multiModalInputs : Option μ

/-- What `RIGHT` returns. -/
structure PaddedSample (μ : Type) extends Sample μ where
  attentionMask : List Nat

variable {μ : Type}

namespace Item

variable (item : Item μ) (d : Dataset)

def positionIds : Tensor :=
  let textPositionIds := range item.inputIds.length
  if d.qwenVl then .matrix (textPositionIds :: ofFn item.visionPositionIds)
  else .vector textPositionIds

/-- `f` along the sequence of every tensor; its number is what the tensor is padded with. -/
def mapSeq (f : Nat → List Nat → List Nat) : PaddedSample μ where
  inputIds := f (d.padTokenId.getD 0) item.inputIds
  positionIds := (item.positionIds d).mapLast (f 0)
  lossMask := f 0 item.lossMask
  multiModalInputs := item.multiModalInputs
  attentionMask := f 0 item.attentionMask

def tooLong : PyErr :=
  .valueError s!"sequence_length={item.inputIds.length} is larger than self.max_length={d.maxLength}"

/-- The end of `__getitem__` with `RIGHT`. -/
def right : Except PyErr (PaddedSample μ) :=
  let sequenceLength := item.inputIds.length
  if sequenceLength < d.maxLength then
    .ok (item.mapSeq d fun pad xs => xs ++ replicate (d.maxLength - sequenceLength) pad)
  else if d.maxLength < sequenceLength then
    match d.truncation with
    | .left => .ok (item.mapSeq d fun _ xs => plainSlice xs (some (-d.maxLength)) none)
    | .right => .ok (item.mapSeq d fun _ xs => xs.take d.maxLength)
    | .error => .error (item.tooLong d)
  else .ok (item.mapSeq d fun _ xs => xs)

/-- The same with `NO_PADDING`. -/
def noPadding : Except PyErr (Sample μ) :=
  let sequenceLength := item.inputIds.length
  if d.maxLength < sequenceLength ∧ d.truncation = .error then .error (item.tooLong d)
  else if d.maxLength < sequenceLength then
    .ok (item.mapSeq d fun _ xs => xs.take d.maxLength).toSample
  else .ok (item.mapSeq d fun _ xs => xs).toSample

end Item

inductive Value (μ : Type) where
  | tensor (t : Tensor)
  | object (x : μ)

def Sample.toDict (s : Sample μ) : Dict (Value μ) :=
  Dict.ofItems ([("input_ids", .tensor (.vector s.inputIds)), ("position_ids", .tensor s.positionIds),
    ("loss_mask", .tensor (.vector s.lossMask))] ++
      s.multiModalInputs.toList.map fun x => ("multi_modal_inputs", .object x))

/-- A nested tensor, or a stack of `NonTensorData`. -/
inductive Column (μ : Type) where
  | nested (tensors : List Tensor)
  | stacked (values : List (Option (Value μ)))

/-- One entry for each sample. -/
def Column.entries : Column μ → List (Option (Value μ))
  | nested tensors => tensors.map fun t => some (.tensor t)
  | stacked values => values

/-- `nested_tensor_from_tensor_list`, or `as_nested_tensor` for tensors of one dimension. -/
def nestedTensor (tensors : List Tensor) : Except PyErr (Column μ) :=
  if ∀ t ∈ tensors, ∀ u ∈ tensors, t.leading = u.leading then .ok (.nested tensors)
  else .error (.runtimeError "Sizes of tensors must match except in the last dimension")

/-- `item[key]`, among tensors. -/
def getTensor (key : String) (item : Dict (Value μ)) : Except PyErr Tensor :=
  match item.get? key with
  | some (.tensor t) => .ok t
  | some (.object _) => .error (.typeError "expected Tensor as element")
  | none => .error (.keyError key)

/-- The body of the loop over the keys. -/
def collateKey (batch : List (Dict (Value μ))) (key : String) : Except PyErr (Column μ) := do
  let first ← pyGetItem batch 0
  match first.get? key with
  | none => .error (.keyError key)
  | some (.tensor _) => do
    let tensors ← batch.mapM (getTensor key)
    nestedTensor tensors
  | some (.object _) => .ok (.stacked (batch.map (·.get? key)))

/-- `collate_variable_batch`; the order of the keys is that of a `set`. -/
def collateVariableBatch (batch : List (Dict (Value μ))) : Except PyErr (Dict (Column μ)) := do
  let tensorKeys := (batch.flatMap Dict.keys).dedup
  let columns ← tensorKeys.mapM (collateKey batch)
  return Dict.ofItems (tensorKeys.zip columns)

/-! ## Padding and truncation -/

/-- The positions with an attention mask. -/
def PaddedSample.withoutPadding (s : PaddedSample μ) : Sample μ :=
  let keep := maskSelect (s.attentionMask.map (· != 0))
  { s.toSample with
    inputIds := keep s.inputIds
    positionIds := s.positionIds.mapLast keep
    lossMask := keep s.lossMask }

def Agrees (d : Dataset) (item : Item μ) : Prop :=
  (∀ s, item.right d = .ok s → item.noPadding d = .ok s.withoutPadding) ∧
    ((∃ e, item.right d = .error e) ↔ ∃ e, item.noPadding d = .error e)

variable {d : Dataset} {item : Item μ}

theorem withoutPadding_mapSeq {f g : Nat → List Nat → List Nat}
    (hkeep : ∀ pad xs, xs.length = item.inputIds.length →
      maskSelect ((f 0 item.attentionMask).map (· != 0)) (f pad xs) = g pad xs) :
    (item.mapSeq d f).withoutPadding = (item.mapSeq d g).toSample := by
  have hpositions : ((item.positionIds d).mapLast (f 0)).mapLast
      (maskSelect ((f 0 item.attentionMask).map (· != 0))) =
        (item.positionIds d).mapLast (g 0) := by
    unfold Item.positionIds
    split
    · refine congrArg Tensor.matrix ?_
      rw [map_map]
      refine map_congr_left fun row hrow => hkeep 0 row ?_
      rcases mem_cons.mp hrow with rfl | hrow
      · exact length_range
      · obtain ⟨i, rfl⟩ := mem_ofFn.mp hrow
        exact item.length_vision i
    · exact congrArg Tensor.vector (hkeep 0 _ length_range)
  unfold PaddedSample.withoutPadding
  dsimp only [Item.mapSeq]
  rw [hkeep _ _ rfl, hkeep 0 _ item.length_lossMask, hpositions]

/-- A cut of the sequence leaves no padding. -/
theorem withoutPadding_cut {f : List Nat → List Nat} {k : Nat}
    (hmask : f item.attentionMask = replicate k 1)
    (hlen : ∀ xs, xs.length = item.inputIds.length → (f xs).length = k) :
    (item.mapSeq d fun _ => f).withoutPadding = (item.mapSeq d fun _ => f).toSample := by
  refine withoutPadding_mapSeq fun _ xs hxs => ?_
  rw [hmask, map_replicate, ← hlen xs hxs]
  exact maskSelect_replicate_true _

theorem withoutPadding_take (m : Nat) : (item.mapSeq d fun _ xs => xs.take m).withoutPadding =
    (item.mapSeq d fun _ xs => xs.take m).toSample := by
  refine withoutPadding_cut (k := min m item.inputIds.length) ?_ fun xs hxs => ?_
  · rw [item.attentionMask_eq, take_replicate]
  · rw [length_take, hxs]

theorem withoutPadding_id : (item.mapSeq d fun _ xs => xs).withoutPadding =
    (item.mapSeq d fun _ xs => xs).toSample :=
  withoutPadding_cut item.attentionMask_eq fun _ hxs => hxs

theorem withoutPadding_pad (k : Nat) :
    (item.mapSeq d fun pad xs => xs ++ replicate k pad).withoutPadding =
      (item.mapSeq d fun _ xs => xs).toSample := by
  refine withoutPadding_mapSeq fun pad xs hxs => ?_
  rw [map_append, item.attentionMask_eq, map_replicate, map_replicate, ← hxs,
    maskSelect_append length_replicate]
  exact (congrArg₂ _ (maskSelect_replicate_true xs) (maskSelect_replicate_false k _)).trans
    (append_nil xs)

theorem exists_drop_eq {m n : Nat} (hlong : m < n) :
    ∃ j, (∀ xs : List Nat, xs.length = n → plainSlice xs (some (-m)) none = xs.drop j) ∧
      (m = 0 ∧ j = 0 ∨ 0 < m ∧ j = n - m) := by
  by_cases hm : m = 0
  · subst hm
    exact ⟨0, fun xs _ => plainSlice_from_zero xs, .inl ⟨rfl, rfl⟩⟩
  · refine ⟨n - m, ?_, .inr ⟨by omega, rfl⟩⟩
    rintro xs rfl
    exact plainSlice_from_neg (by omega) (by omega)

/-- The first and the last tokens of a sequence that is too long have other positions. -/
theorem take_ne_left (hlong : d.maxLength < item.inputIds.length) :
    (item.mapSeq d fun _ xs => xs.take d.maxLength).toSample ≠
      (item.mapSeq d fun _ xs => plainSlice xs (some (-d.maxLength)) none).withoutPadding := by
  obtain ⟨j, hslice, hj⟩ := exists_drop_eq hlong
  have hmask : plainSlice item.attentionMask (some (-d.maxLength)) none =
      replicate (item.inputIds.length - j) 1 := by
    rw [item.attentionMask_eq, hslice _ length_replicate, drop_replicate]
  have hlen : ∀ xs : List Nat, xs.length = item.inputIds.length →
      (plainSlice xs (some (-d.maxLength)) none).length = item.inputIds.length - j := by
    intro xs hxs
    rw [hslice xs hxs, length_drop, hxs]
  rw [withoutPadding_cut hmask hlen]
  intro heq
  have hpositions := congrArg Sample.positionIds heq
  have htext : (range item.inputIds.length).take d.maxLength =
      (range item.inputIds.length).drop j := by
    rw [← hslice _ length_range]
    dsimp only [Item.mapSeq, Item.positionIds] at hpositions
    split at hpositions
    · exact (cons.inj (Tensor.matrix.inj hpositions)).1
    · exact Tensor.vector.inj hpositions
  have hfirst := congrArg (·[0]?) htext
  have hlength := congrArg length htext
  simp only [getElem?_drop] at hfirst hlength
  grind

theorem agrees_iff (d : Dataset) (item : Item μ) :
    Agrees d item ↔ item.inputIds.length ≤ d.maxLength ∨ d.truncation ≠ .left := by
  unfold Agrees Item.right Item.noPadding
  rcases Nat.lt_trichotomy item.inputIds.length d.maxLength with hlt | heq | hlong
  · simp [hlt, hlt.le, hlt.not_gt, withoutPadding_pad]
  · simp [heq, withoutPadding_id]
  · cases htruncation : d.truncation with
    | left => simp [hlong, hlong.not_gt, take_ne_left hlong]
    | right => simp [hlong, hlong.not_gt, withoutPadding_take]
    | error => simp [hlong, hlong.not_gt]

/-- A conversation of three tokens. -/
def threeTokens (multiModalInputs : Option Nat) : Item Nat where
  inputIds := [5, 6, 7]
  attentionMask := [1, 1, 1]
  lossMask := [0, 1, 1]
  visionPositionIds _ := [0, 1, 2]
  multiModalInputs
  attentionMask_eq := rfl
  length_lossMask := rfl
  length_vision _ := rfl

theorem not_agrees_left : ¬Agrees ⟨2, .left, none, false⟩ (threeTokens none) := by
  intro h
  have hids := congrArg Sample.inputIds (Except.ok.inj (h.1 _ rfl))
  exact absurd hids (by decide)

/-! ## Collating -/

/-- Every key of a sample has one entry for each sample, `None` where the sample lacks it. -/
def Collates (batch : List (Dict (Value μ))) : Prop :=
  ∃ final, collateVariableBatch batch = .ok final ∧ ∀ key, (final.get? key).map Column.entries =
    if key ∈ batch.flatMap Dict.keys then some (batch.map (·.get? key)) else none

variable {s : Sample μ} {samples : List (Sample μ)} {batch : List (Dict (Value μ))} {key : String}

theorem items_toDict (s : Sample μ) : s.toDict.items =
    [("input_ids", .tensor (.vector s.inputIds)), ("position_ids", .tensor s.positionIds),
      ("loss_mask", .tensor (.vector s.lossMask))] ++
        s.multiModalInputs.toList.map fun x => ("multi_modal_inputs", .object x) := by
  refine Dict.items_ofItems ?_
  cases s.multiModalInputs <;> simp

theorem get?_multiModalInputs (s : Sample μ) :
    s.toDict.get? "multi_modal_inputs" = s.multiModalInputs.map .object := by
  unfold Dict.get?
  rw [items_toDict]
  cases s.multiModalInputs <;> rfl

theorem exists_collateKey (hkeys : Collates batch) (hkey : key ∈ batch.flatMap Dict.keys) :
    ∃ c, collateKey batch key = .ok c := by
  obtain ⟨final, hfinal, -⟩ := hkeys
  obtain ⟨columns, hcolumns, -⟩ := bind_eq_ok.1 hfinal
  exact exists_of_mapM hcolumns (List.mem_dedup.mpr hkey)

theorem collates_of_keys (h : ∀ key ∈ batch.flatMap Dict.keys, ∃ c, collateKey batch key = .ok c ∧
    c.entries = batch.map (·.get? key)) : Collates batch := by
  have : Nonempty (Column μ) := ⟨.stacked []⟩
  choose! g hg hentries using h
  have hcolumns := mapM_eq_ok_map (collateKey batch) g (batch.flatMap Dict.keys).dedup
    fun key hkey => hg key (List.mem_dedup.mp hkey)
  refine ⟨_, by rw [collateVariableBatch, hcolumns]; rfl, fun key => ?_⟩
  rw [← map_prod_left_eq_zip, Dict.get?_ofItems, lookup_map_pair]
  · simp only [List.mem_dedup]
    split
    · next hkey => exact congrArg some (hentries key hkey)
    · rfl
  · rw [map_map]
    exact (map_id' _).symm ▸ nodup_dedup _

/-- A key with a tensor in every sample. -/
theorem collateKey_tensor (hne : samples ≠ []) (t : Sample μ → Tensor)
    (hget : ∀ s ∈ samples, s.toDict.get? key = some (.tensor (t s)))
    (hleading : ∀ s ∈ samples, ∀ u ∈ samples, (t s).leading = (t u).leading) :
    ∃ c, collateKey (samples.map Sample.toDict) key = .ok c ∧
      c.entries = (samples.map Sample.toDict).map (·.get? key) := by
  have htensors : (samples.map Sample.toDict).mapM (getTensor key) = .ok (samples.map t) := by
    rw [List.mapM_map]
    refine mapM_eq_ok_map _ t samples fun s hs => ?_
    simp only [Function.comp, getTensor, hget s hs]
  obtain ⟨s, rest, rfl⟩ := exists_cons_of_ne_nil hne
  refine ⟨.nested ((s :: rest).map t), ?_, ?_⟩
  · unfold collateKey
    rw [htensors]
    simp only [pyGetItem, map_cons, getElem?_cons_zero, ok_bind, hget s mem_cons_self]
    refine if_pos ?_
    simpa only [← map_cons, forall_mem_map] using hleading
  · simp only [Column.entries, map_map]
    exact map_congr_left fun s hs => (hget s hs).symm

theorem leading_of_noPadding (h : item.noPadding d = .ok s) :
    s.positionIds.leading = if d.qwenVl then some 4 else none := by
  have hmap : ∀ f, (item.mapSeq d f).positionIds.leading = if d.qwenVl then some 4 else none := by
    intro f
    unfold Item.mapSeq Item.positionIds
    split
    · simp [Tensor.mapLast, Tensor.leading]
    · rfl
  unfold Item.noPadding at h
  dsimp only at h
  split at h
  · cases h
  · split at h
    · cases h
      exact hmap _
    · cases h
      exact hmap _

/-- Samples of one dataset are collated if the first one has multi-modal inputs, or none has. -/
theorem collates_iff (hret : ∀ s ∈ samples, ∃ item : Item μ, item.noPadding d = .ok s) :
    Collates (samples.map Sample.toDict) ↔ (∀ s ∈ samples, s.multiModalInputs = none) ∨
      ∃ s, samples.head? = some s ∧ s.multiModalInputs.isSome := by
  constructor
  · intro hcollates
    by_contra! hnot
    obtain ⟨⟨u, hu, hsome⟩, hhead⟩ := hnot
    obtain ⟨s, rest, rfl⟩ := exists_cons_of_ne_nil (ne_nil_of_mem hu)
    have hkey : "multi_modal_inputs" ∈ ((s :: rest).map Sample.toDict).flatMap Dict.keys := by
      refine mem_flatMap.mpr ⟨_, mem_map_of_mem hu, Dict.isSome_get?_iff.mp ?_⟩
      rw [get?_multiModalInputs, Option.isSome_map]
      exact Option.isSome_iff_ne_none.mpr hsome
    obtain ⟨c, hc⟩ := exists_collateKey hcollates hkey
    have hnone : s.toDict.get? "multi_modal_inputs" = none := by
      rw [get?_multiModalInputs, Option.not_isSome_iff_eq_none.mp (hhead s rfl)]
      rfl
    rw [collateKey, map_cons, pyGetItem, getElem?_cons_zero, ok_bind, hnone] at hc
    cases hc
  · intro h
    refine collates_of_keys fun key hkey => ?_
    obtain ⟨dict, hdict, hkey⟩ := mem_flatMap.mp hkey
    obtain ⟨u, hu, rfl⟩ := mem_map.mp hdict
    have hne := ne_nil_of_mem hu
    rw [Dict.keys, items_toDict] at hkey
    simp only [map_append, map_cons, map_nil, map_map, mem_append, mem_cons, not_mem_nil,
      or_false] at hkey
    rcases hkey with (rfl | rfl | rfl) | hkey
    · refine collateKey_tensor hne (fun s => .vector s.inputIds) (fun s _ => ?_)
        fun _ _ _ _ => rfl
      rw [Dict.get?, items_toDict]
      rfl
    · refine collateKey_tensor hne Sample.positionIds (fun s _ => ?_) fun s hs u hu => ?_
      · rw [Dict.get?, items_toDict]
        rfl
      · obtain ⟨_, hs⟩ := hret s hs
        obtain ⟨_, hu⟩ := hret u hu
        rw [leading_of_noPadding hs, leading_of_noPadding hu]
    · refine collateKey_tensor hne (fun s => .vector s.lossMask) (fun s _ => ?_)
        fun _ _ _ _ => rfl
      rw [Dict.get?, items_toDict]
      rfl
    · obtain ⟨x, hx, rfl⟩ := mem_map.mp hkey
      rcases h with h | ⟨s, hhead, hsome⟩
      · rw [h u hu] at hx
        cases hx
      · obtain ⟨rest, rfl⟩ := head?_eq_some_iff.mp hhead
        obtain ⟨y, hy⟩ := Option.isSome_iff_exists.mp hsome
        refine ⟨.stacked _, ?_, rfl⟩
        simp only [collateKey, map_cons, pyGetItem, getElem?_cons_zero, ok_bind, Function.comp,
          get?_multiModalInputs, hy, Option.map_some]

theorem collates_perm_iff (hret : ∀ s ∈ samples, ∃ item : Item μ, item.noPadding d = .ok s) :
    (∀ samples' : List (Sample μ), samples'.Perm samples → Collates (samples'.map Sample.toDict)) ↔
      (∀ s ∈ samples, s.multiModalInputs = none) ∨ ∀ s ∈ samples, s.multiModalInputs.isSome := by
  constructor
  · intro hcollates
    by_contra! hnot
    obtain ⟨⟨u, hu, hsome⟩, s, hs, hnone⟩ := hnot
    obtain ⟨front, back, rfl⟩ := append_of_mem hs
    have hperm : (s :: (front ++ back)).Perm (front ++ s :: back) := perm_middle.symm
    rcases (collates_iff fun v hv => hret v (hperm.mem_iff.mp hv)).mp (hcollates _ hperm)
      with hall | ⟨v, hv, hisSome⟩
    · exact hsome (hall u (hperm.mem_iff.mpr hu))
    · cases hv
      exact hnone hisSome
  · intro h samples' hperm
    refine (collates_iff fun v hv => hret v (hperm.mem_iff.mp hv)).mpr ?_
    rcases h with h | h
    · exact .inl fun s hs => h s (hperm.mem_iff.mp hs)
    · cases samples' with
      | nil => exact .inl fun s hs => absurd hs not_mem_nil
      | cons s rest => exact .inr ⟨s, rfl, h s (hperm.mem_iff.mp mem_cons_self)⟩

/-- `NO_PADDING` of the three tokens. -/
def threeTokensSample (multiModalInputs : Option Nat) : Sample Nat :=
  ⟨[5, 6, 7], .vector [0, 1, 2], [0, 1, 1], multiModalInputs⟩

theorem noPadding_threeTokens (multiModalInputs : Option Nat) :
    (threeTokens multiModalInputs).noPadding ⟨4, .left, none, false⟩ =
      .ok (threeTokensSample multiModalInputs) := rfl

theorem collates_two_texts :
    Collates ([threeTokensSample none, threeTokensSample none].map Sample.toDict) := by
  refine (collates_perm_iff (d := ⟨4, .left, none, false⟩) fun s hs => ?_).mpr
    (.inl fun s hs => ?_) _ (.refl _)
  · exact ⟨threeTokens none, (noPadding_threeTokens none).trans (by simp_all)⟩
  · simp_all [threeTokensSample]

/-- The first sample is a text, the second one has an image. -/
theorem not_collates_text_first :
    (∀ s ∈ [threeTokensSample none, threeTokensSample (some 9)],
      ∃ item : Item Nat, item.noPadding ⟨4, .left, none, false⟩ = .ok s) ∧
    ¬Collates ([threeTokensSample none, threeTokensSample (some 9)].map Sample.toDict) := by
  have hret : ∀ s ∈ [threeTokensSample none, threeTokensSample (some 9)],
      ∃ item : Item Nat, item.noPadding ⟨4, .left, none, false⟩ = .ok s := by
    rintro s hs
    obtain rfl | rfl : s = _ ∨ s = _ := by simpa using hs
    · exact ⟨_, noPadding_threeTokens none⟩
    · exact ⟨_, noPadding_threeTokens (some 9)⟩
  refine ⟨hret, fun hcollates => ?_⟩
  rcases (collates_iff hret).mp hcollates with hall | ⟨s, hhead, hsome⟩
  · cases hall _ (mem_cons_of_mem _ mem_cons_self)
  · cases hhead
    cases hsome

end Verl.SftDataset
