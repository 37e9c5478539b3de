import Verl.Lib.Python
import Verl.Lib.Strided

/-! # Activation offloading (`utils/activation_offload.py`)

The layers of a model save tensors for the backward pass.  `AsyncDoubleBufferGroupOffloadHandler`
copies the tensors of all layers but the last to the CPU while the next layer runs, and back one
layer ahead of their use.

    forward     push 0, commit 0: offload 0      push 1, commit 1: free 0, offload 1    ..
    backward    commit 1: reload 0, pop 1        commit 0, pop 0

Tensors of a layer that start at the same address and have the same dtype share one copy, the one
of the tensor that was pushed first, which each of them views in its own shape. -/

namespace Verl.Offload

open List

variable {δ α : Type}

/-! ## Algorithm -/

structure Tensor (δ α : Type) extends Strided α where
  /-- `untyped_storage().data_ptr()`. -/
  dataPtr : Nat
  dtype : δ

abbrev Key (δ : Type) := Nat × δ

/-- The group and the number in it. -/
abbrev Tag := Nat × Nat

/-- `_get_unique_tensor_key`. -/
def getUniqueTensorKey (tensor : Tensor δ α) : Key δ :=
  (tensor.dataPtr + tensor.offset, tensor.dtype)

/-- A value of `tensor_tag_to_state`. -/
inductive TagState (δ α : Type) where
  | tensor (tensor : Tensor δ α)
  | offloaded (key : Key δ) (shape : List Nat)

/-- A contiguous copy on the CPU. -/
structure CpuBackup (δ α : Type) where
  dtype : δ
  shape : List Nat
  elems : List α
  numel : elems.length = shape.prod

/-- `SynchronizedGroupOffloadHandler.offload`. -/
def offload (tensor : Tensor δ α) : CpuBackup δ α where
  dtype := tensor.dtype
  shape := tensor.shape
  elems := tensor.elems
  numel := tensor.length_elems

/-- The copy, back on the device at address `dataPtr`, and its `view(shape)`. -/
def reloadView (dataPtr : Nat) (backup : CpuBackup δ α) (shape : List Nat) :
    Except PyErr (Tensor δ α) :=
  if h : backup.elems.length = shape.prod then
    .ok {
      toStrided := .contiguous backup.elems shape h
      dataPtr := dataPtr
      dtype := backup.dtype }
  else .error (.runtimeError s!"shape '{shape}' is invalid for input of size {backup.elems.length}")

structure Handler (δ α : Type) where
  numOffloadGroup : Nat
  layerWindowMap : List Int
  currentGroup : Nat
  tensorCountCurrentGroup : Nat
  tensorTagToState : List (Tag × TagState δ α)
  tensorTagToBuf : List (Tag × Option (Tensor δ α))
  offloadedGroupCount : Nat
  groupOffloadMapping : List (Nat × List (Key δ × CpuBackup δ α))

/-- One entry of `layer_window_map`, with `constant`. -/
def windowStep (numLayers numOffloadGroup : Nat) (acc : List Int × Nat) (i : Nat) :
    List Int × Nat :=
  let window : Int := ((numLayers / numOffloadGroup * (i + 1) : Nat) : Int) - 1
  if i < numLayers % numOffloadGroup then (acc.1 ++ [window + (i + 1 : Nat)], i + 1)
  else (acc.1 ++ [window + acc.2], acc.2)

/-- `AsyncDoubleBufferGroupOffloadHandler(num_offload_group, num_model_group)`. -/
def Handler.new (numOffloadGroup numModelGroup : Nat) : Handler δ α where
  numOffloadGroup := numOffloadGroup
  layerWindowMap :=
    ((List.range numOffloadGroup).foldl (windowStep numModelGroup numOffloadGroup) ([], 0)).1
  currentGroup := 0
  tensorCountCurrentGroup := 0
  tensorTagToState := []
  tensorTagToBuf := []
  offloadedGroupCount := 0
  groupOffloadMapping := []

/-- A tensor that autograd saves; parameters of the model are not offloaded. -/
structure Saved (δ α : Type) where
  tensor : Tensor δ α
  needOffload : Bool

/-- What autograd keeps for a saved tensor. -/
inductive TensorTag (δ α : Type) where
  | tag (tag : Tag)
  | tensor (tensor : Tensor δ α)

namespace Handler

def tensorPush (h : Handler δ α) (s : Saved δ α) :
    Except PyErr (Handler δ α × TensorTag δ α) :=
  if s.needOffload then
    let tag := (h.currentGroup, h.tensorCountCurrentGroup)
    if tag ∈ h.tensorTagToState.map Prod.fst then .error (.assertionError "")
    else
      .ok ({ h with
          tensorCountCurrentGroup := h.tensorCountCurrentGroup + 1
          tensorTagToState := h.tensorTagToState ++ [(tag, .tensor s.tensor)]
          tensorTagToBuf :=
            if h.currentGroup < h.numOffloadGroup then
              (h.tensorTagToBuf.filter fun item => item.1 != tag) ++ [(tag, some s.tensor)]
            else h.tensorTagToBuf },
        .tag tag)
  else .ok (h, .tensor s.tensor)

def tensorPop (h : Handler δ α) : TensorTag δ α → Except PyErr (Handler δ α × Tensor δ α)
  | .tensor tensor => .ok (h, tensor)
  | .tag tag =>
    match h.tensorTagToState.lookup tag with
    | some (.tensor tensor) =>
      .ok ({ h with
          tensorTagToState := h.tensorTagToState.filter fun item => item.1 != tag
          tensorTagToBuf := h.tensorTagToBuf.filter fun item => item.1 != tag },
        tensor)
    | _ => .error (.assertionError "")

variable [DecidableEq δ]

/-- `offload_mapping`: the first tensor of each key. -/
def addToMapping (mapping : List (Key δ × CpuBackup δ α)) (tensor : Tensor δ α) :
    List (Key δ × CpuBackup δ α) :=
  if getUniqueTensorKey tensor ∈ mapping.map Prod.fst then mapping
  else mapping ++ [(getUniqueTensorKey tensor, offload tensor)]

/-- `assert not isinstance(state, tuple)`. -/
def stateTensor : TagState δ α → Except PyErr (Tensor δ α)
  | .tensor tensor => .ok tensor
  | .offloaded _ _ => .error (.assertionError "")

/-- What stands for a tensor of the group afterwards. -/
def markOffloaded (group : Nat) (item : Tag × TagState δ α) : Tag × TagState δ α :=
  match item with
  | (tag, .tensor tensor) =>
    if tag.1 = group then (tag, .offloaded (getUniqueTensorKey tensor) tensor.shape)
    else (tag, .tensor tensor)
  | (tag, .offloaded key shape) => (tag, .offloaded key shape)

def bulkOffloadGroup (h : Handler δ α) (groupToOffload : Nat) : Except PyErr (Handler δ α) := do
  let items := h.tensorTagToState.filter fun item => item.1.1 == groupToOffload
  let tensors ← items.mapM fun item => stateTensor item.2
  let offloadMapping := tensors.foldl addToMapping []
  return { h with
    tensorTagToState := h.tensorTagToState.map (markOffloaded groupToOffload)
    groupOffloadMapping :=
      (h.groupOffloadMapping.filter fun item => item.1 != groupToOffload) ++
        [(groupToOffload, offloadMapping)] }

def layerWindow (h : Handler δ α) (i : Nat) : Except PyErr Int :=
  match h.layerWindowMap[i]? with
  | some window => .ok window
  | none => .error (.keyError (toString i))

/-- The buffers of a group are freed. -/
def freeBuf (group : Nat) (item : Tag × Option (Tensor δ α)) : Tag × Option (Tensor δ α) :=
  if item.1.1 = group then (item.1, none) else item

/-- The window of the group that is being offloaded has come. -/
def finishOffload (h : Handler δ α) : Except PyErr (Handler δ α) := do
  let group := h.offloadedGroupCount
  let h := { h with tensorTagToBuf := h.tensorTagToBuf.map (freeBuf group) }
  let h ← if group + 1 < h.numOffloadGroup then h.bulkOffloadGroup (group + 1) else Except.ok h
  return { h with offloadedGroupCount := group + 1 }

/-- The offload of the first group is started behind its forward. -/
def startOffload (h : Handler δ α) (currentGroup : Nat) : Except PyErr (Handler δ α) :=
  if currentGroup = 0 then h.bulkOffloadGroup currentGroup else .ok h

def synchronizeOnGroupCommitForward (h : Handler δ α) (currentGroup : Nat) :
    Except PyErr (Handler δ α) := do
  let h ← h.startOffload currentGroup
  let window ← h.layerWindow h.offloadedGroupCount
  if window = currentGroup then h.finishOffload else return h

def onGroupCommitForward (h : Handler δ α) : Except PyErr (Handler δ α) := do
  let h ← h.synchronizeOnGroupCommitForward h.currentGroup
  return { h with currentGroup := h.currentGroup + 1, tensorCountCurrentGroup := 0 }

section Reload

-- where the allocator puts a copy on the device
variable (alloc : CpuBackup δ α → Nat)

/-- The tensor of a group that is reloaded, of which `offload_mapping` has the copy. -/
def reloadItem (group : Nat) (offloadMapping : List (Key δ × CpuBackup δ α)) :
    Tag × TagState δ α → Except PyErr (Tag × TagState δ α)
  | (tag, .tensor tensor) => .ok (tag, .tensor tensor)
  | (tag, .offloaded key shape) =>
    if tag.1 = group then
      match offloadMapping.lookup key with
      | some backup => (reloadView (alloc backup) backup shape).map fun t => (tag, .tensor t)
      | none => .error (.keyError "key")
    else .ok (tag, .offloaded key shape)

def bulkReloadGroup (h : Handler δ α) (groupToReload : Nat) : Except PyErr (Handler δ α) := do
  pyAssert (groupToReload < h.numOffloadGroup) ""
  match h.groupOffloadMapping.lookup groupToReload with
  | none => .error (.keyError (toString groupToReload))
  | some offloadMapping => do
    let items ← h.tensorTagToState.mapM (reloadItem alloc groupToReload offloadMapping)
    return { h with
      tensorTagToState := items
      groupOffloadMapping := h.groupOffloadMapping.filter fun item => item.1 != groupToReload }

/-- The next group is reloaded when its window has come. -/
def reloadNext (h : Handler δ α) : Except PyErr (Handler δ α) :=
  match h.offloadedGroupCount with
  | 0 => .error (.keyError "-1")
  | count + 1 => do
    let window ← h.layerWindow count
    if window = h.currentGroup then
      let h ← h.bulkReloadGroup alloc count
      return { h with offloadedGroupCount := if 0 < count then count else count + 1 }
    else return h

def onGroupCommitBackward (h : Handler δ α) : Except PyErr (Handler δ α) :=
  match h.currentGroup with
  | 0 => .error (.assertionError "")
  | group + 1 => do
    let h ← { h with currentGroup := group }.reloadNext alloc
    return { h with
      offloadedGroupCount := if h.currentGroup = 0 then 0 else h.offloadedGroupCount }

end Reload

end Handler

/-! ## Training -/

/-- The tensors that a layer saves, and the order in which its backward fetches them. -/
structure Layer (δ α : Type) where
  saved : List (Saved δ α)
  fetched : List Nat
  once : fetched.Perm (List.range saved.length)

/-- `tensor_push` of the tensors of a layer. -/
def pushAll (h : Handler δ α) (saved : List (Saved δ α)) :
    Except PyErr (Handler δ α × List (TensorTag δ α)) :=
  saved.foldlM (fun (h, tags) s => do
    let (h, tag) ← h.tensorPush s
    return (h, tags ++ [tag])) (h, [])

def popAll (h : Handler δ α) (tags : List (TensorTag δ α)) :
    Except PyErr (Handler δ α × List (Tensor δ α)) :=
  tags.foldlM (fun (h, tensors) tag => do
    let (h, tensor) ← h.tensorPop tag
    return (h, tensors ++ [tensor])) (h, [])

section Train

variable [DecidableEq δ]

def forwardLayer (h : Handler δ α) (layer : Layer δ α) :
    Except PyErr (Handler δ α × List (TensorTag δ α)) := do
  let (h, tags) ← pushAll h layer.saved
  let h ← h.onGroupCommitForward
  return (h, tags)

variable (alloc : CpuBackup δ α → Nat)

def backwardLayer (h : Handler δ α) (layer : Layer δ α) (tags : List (TensorTag δ α)) :
    Except PyErr (Handler δ α × List (Tensor δ α)) := do
  let h ← h.onGroupCommitBackward alloc
  popAll h (layer.fetched.filterMap fun i => tags[i]?)

/-- The forward of the layers, then their backward, from the last one to the first; what the
backward of each layer fetches, in its order. -/
def trainStep (h : Handler δ α) :
    List (Layer δ α) → Except PyErr (Handler δ α × List (List (Tensor δ α)))
  | [] => .ok (h, [])
  | layer :: layers => do
    let (h, tags) ← forwardLayer h layer
    let (h, tensors) ← trainStep h layers
    let (h, fetched) ← backwardLayer alloc h layer tags
    return (h, fetched :: tensors)

/-- The iterations, one after the other: the handler behind each of them, and what it fetched. -/
def train (h : Handler δ α) :
    List (List (Layer δ α)) → Except PyErr (List (Handler δ α × List (List (Tensor δ α))))
  | [] => .ok []
  | layers :: iterations => do
    let (h, tensors) ← trainStep alloc h layers
    let rest ← train h iterations
    return (h, tensors) :: rest

end Train

/-! ## What is fetched -/

/-- The tensors that get a tag. -/
def pushedOf (saved : List (Saved δ α)) : List (Tensor δ α) :=
  (saved.filter (·.needOffload)).map (·.tensor)

def Layer.pushed (layer : Layer δ α) : List (Tensor δ α) := pushedOf layer.saved

section Aliases

variable [DecidableEq δ]

/-- The first tensor with the address and dtype of `t`. -/
def Layer.firstAlias (layer : Layer δ α) (t : Tensor δ α) : Option (Tensor δ α) :=
  layer.pushed.find? fun t' => getUniqueTensorKey t' = getUniqueTensorKey t

/-- Tensors with the same address and dtype have the same elements in the same order. -/
def Layer.AliasesAgree (layer : Layer δ α) : Prop :=
  ∀ t ∈ layer.pushed, ∀ first, layer.firstAlias t = some first → first.elems = t.elems

end Aliases

/-- The backward fetches the shapes and the elements that were saved. -/
def Layer.FetchedRight (layer : Layer δ α) (fetched : List (Tensor δ α)) : Prop :=
  List.Forall₂ (fun i t => ∃ s, layer.saved[i]? = some s ∧ t.shape = s.tensor.shape ∧
    t.elems = s.tensor.elems) layer.fetched fetched

/-! ## Lemmas: groups of items -/

section Items

variable {σ : Type}

/-- The items of a group, numbered from `n`. -/
def groupItems (group n : Nat) (xs : List σ) : List (Tag × σ) :=
  (xs.zipIdx n).map fun p => ((group, p.2), p.1)

variable {tag : Tag} {group n : Nat} {xs : List σ}

theorem groupItems_cons (group n : Nat) (x : σ) (xs : List σ) :
    groupItems group n (x :: xs) = ((group, n), x) :: groupItems group (n + 1) xs := by
  unfold groupItems
  rw [zipIdx_cons, map_cons]

theorem fst_of_mem_groupItems {item : Tag × σ}
    (h : item ∈ groupItems group n xs) : item.1.1 = group := by
  obtain ⟨p, -, rfl⟩ := mem_map.1 h
  rfl

theorem map_snd_groupItems (group n : Nat) (xs : List σ) :
    (groupItems group n xs).map Prod.snd = xs := by
  unfold groupItems
  rw [map_map]
  exact zipIdx_map_fst n xs

theorem mem_map_fst_groupItems :
    tag ∈ (groupItems group n xs).map Prod.fst ↔ tag.1 = group ∧ n ≤ tag.2 ∧ tag.2 < n + xs.length := by
  induction xs generalizing n with
  | nil =>
    simp [groupItems]
  | cons x xs ih =>
    rw [groupItems_cons, map_cons, mem_cons, ih, length_cons]
    rw [Prod.mk.injEq]
    omega

theorem lookup_groupItems {i : Nat} (h : n ≤ i) :
    (groupItems group n xs).lookup (group, i) = xs[i - n]? := by
  induction xs generalizing n with
  | nil => rfl
  | cons x xs ih =>
    rw [groupItems_cons]
    rcases Nat.lt_or_eq_of_le h with hlt | rfl
    · grind
    · simp

theorem lookup_append_of_ne {lower top : List (Tag × σ)}
    (h : ∀ item ∈ lower, item.1.1 ≠ tag.1) : (lower ++ top).lookup tag = top.lookup tag := by
  induction lower with
  | nil => rfl
  | cons item lower ih =>
    have hne : (tag == item.1) = false := by
      rw [beq_eq_false_iff_ne]
      rintro rfl
      exact h item mem_cons_self rfl
    rw [cons_append, lookup_cons, hne]
    exact ih fun item hitem => h item (mem_cons_of_mem _ hitem)

theorem lookup_filter_ne {items : List (Tag × σ)} {tag' : Tag} (h : tag' ≠ tag) :
    (items.filter fun item => item.1 != tag).lookup tag' = items.lookup tag' := by
  induction items with
  | nil => rfl
  | cons item items ih =>
    by_cases htag : item.1 = tag
    · grind
    · grind

end Items

/-! ## Lemmas: the forward of a layer -/

/-- What autograd keeps for the tensors of a group, numbered from `n`. -/
def tagsOf (group : Nat) : Nat → List (Saved δ α) → List (TensorTag δ α)
  | _, [] => []
  | n, s :: saved =>
    if s.needOffload then .tag (group, n) :: tagsOf group (n + 1) saved
    else .tensor s.tensor :: tagsOf group n saved

/-- The handler with the tensors of its current group. -/
def pushedState (h : Handler δ α) (saved : List (Saved δ α)) : Handler δ α :=
  { h with
    tensorCountCurrentGroup := h.tensorCountCurrentGroup + (pushedOf saved).length
    tensorTagToState := h.tensorTagToState ++ groupItems h.currentGroup h.tensorCountCurrentGroup
      ((pushedOf saved).map .tensor)
    tensorTagToBuf :=
      if h.currentGroup < h.numOffloadGroup then
        h.tensorTagToBuf ++ groupItems h.currentGroup h.tensorCountCurrentGroup
          ((pushedOf saved).map some)
      else h.tensorTagToBuf }

/-- No tag of the current group is used yet from its count on. -/
def FreshTags (h : Handler δ α) : Prop :=
  (∀ item ∈ h.tensorTagToState, item.1.1 = h.currentGroup → item.1.2 < h.tensorCountCurrentGroup) ∧
    ∀ item ∈ h.tensorTagToBuf, item.1.1 = h.currentGroup → item.1.2 < h.tensorCountCurrentGroup

variable {h : Handler δ α} {s : Saved δ α}

theorem tensorPush_eq (hfresh : FreshTags h) (hs : s.needOffload = true) :
    h.tensorPush s =
      .ok (pushedState h [s], .tag (h.currentGroup, h.tensorCountCurrentGroup)) := by
  have hnew : (h.currentGroup, h.tensorCountCurrentGroup) ∉ h.tensorTagToState.map Prod.fst := by
    intro hmem
    obtain ⟨item, hitem, heq⟩ := mem_map.1 hmem
    have hlt := hfresh.1 item hitem (by rw [heq])
    rw [heq] at hlt
    exact absurd hlt (Nat.lt_irrefl _)
  have hbuf : (h.tensorTagToBuf.filter fun item =>
      item.1 != (h.currentGroup, h.tensorCountCurrentGroup)) = h.tensorTagToBuf := by
    rw [filter_eq_self]
    intro item hitem
    rw [bne_iff_ne]
    intro heq
    have hlt := hfresh.2 item hitem (by rw [heq])
    rw [heq] at hlt
    exact absurd hlt (Nat.lt_irrefl _)
  unfold Handler.tensorPush
  rw [if_neg hnew, hbuf]
  simp [pushedState, pushedOf, hs, groupItems]

theorem freshTags_pushedState (hfresh : FreshTags h)
    (hs : s.needOffload = true) : FreshTags (pushedState h [s]) := by
  have hitems : ∀ {σ : Type} (x : σ), ∀ item ∈ groupItems h.currentGroup h.tensorCountCurrentGroup [x],
      item.1.2 < h.tensorCountCurrentGroup + 1 := by
    intro σ x item hitem
    have htag := mem_map_fst_groupItems.1 (mem_map_of_mem (f := Prod.fst) hitem)
    exact htag.2.2
  have hone : pushedOf [s] = [s.tensor] := by
    unfold pushedOf
    rw [filter_cons_of_pos hs]
    rfl
  unfold pushedState
  rw [hone]
  constructor
  · intro item hitem hgroup
    rcases mem_append.1 hitem with hitem | hitem
    · exact Nat.lt_succ_of_lt (hfresh.1 item hitem hgroup)
    · exact hitems _ item hitem
  · intro item hitem hgroup
    split at hitem
    · rcases mem_append.1 hitem with hitem | hitem
      · exact Nat.lt_succ_of_lt (hfresh.2 item hitem hgroup)
      · exact hitems _ item hitem
    · exact Nat.lt_succ_of_lt (hfresh.2 item hitem hgroup)

theorem pushedState_cons (h : Handler δ α) (hs : s.needOffload = true) (saved : List (Saved δ α)) :
    pushedState (pushedState h [s]) saved = pushedState h (s :: saved) := by
  have hone : pushedOf [s] = [s.tensor] := by
    unfold pushedOf
    rw [filter_cons_of_pos hs]
    rfl
  have hcons : pushedOf (s :: saved) = s.tensor :: pushedOf saved := by
    unfold pushedOf
    rw [filter_cons_of_pos hs]
    rfl
  have hitems : ∀ {σ : Type} (x : σ) (xs : List σ) (n : Nat),
      groupItems h.currentGroup n [x] ++ groupItems h.currentGroup (n + 1) xs =
        groupItems h.currentGroup n (x :: xs) := by
    intro σ x xs n
    rfl
  unfold pushedState
  by_cases hgroup : h.currentGroup < h.numOffloadGroup
  · grind
  · grind

theorem foldlM_tensorPush (hfresh : FreshTags h) (saved : List (Saved δ α))
    (tags : List (TensorTag δ α)) :
    saved.foldlM (fun ((h, tags) : Handler δ α × List (TensorTag δ α)) s => do
        let (h, tag) ← h.tensorPush s
        return (h, tags ++ [tag])) (h, tags) =
      (.ok (pushedState h saved, tags ++ tagsOf h.currentGroup h.tensorCountCurrentGroup saved) :
        Except PyErr _) := by
  induction saved generalizing h tags with
  | nil => simp [pushedState, pushedOf, tagsOf, groupItems]; rfl
  | cons s saved ih =>
    rw [foldlM_cons]
    by_cases hs : s.needOffload = true
    · dsimp only
      rw [tensorPush_eq hfresh hs]
      refine (ih (freshTags_pushedState hfresh hs) _).trans ?_
      have hcount : (pushedState h [s]).tensorCountCurrentGroup = h.tensorCountCurrentGroup + 1 := by
        simp [pushedState, pushedOf, hs]
      have hgroup : (pushedState h [s]).currentGroup = h.currentGroup := rfl
      rw [pushedState_cons h hs, hcount, hgroup]
      simp [tagsOf, hs]
    · have hpush : h.tensorPush s = .ok (h, .tensor s.tensor) := if_neg hs
      have hstate : pushedState h (s :: saved) = pushedState h saved := by
        simp [pushedState, pushedOf, hs]
      dsimp only
      rw [hpush]
      refine (ih hfresh _).trans ?_
      rw [hstate]
      simp [tagsOf, hs]

theorem pushAll_eq (hfresh : FreshTags h) (saved : List (Saved δ α)) : pushAll h saved =
      .ok (pushedState h saved, tagsOf h.currentGroup h.tensorCountCurrentGroup saved) :=
  foldlM_tensorPush hfresh saved []

/-! ## Lemmas: offloading a group -/

section Offloading

variable [DecidableEq δ]

/-- What stands for a tensor that is offloaded. -/
def offloadedState (t : Tensor δ α) : TagState δ α := .offloaded (getUniqueTensorKey t) t.shape

omit [DecidableEq δ] in
theorem map_markOffloaded {group : Nat} {lower : List (Tag × TagState δ α)}
    (hlower : ∀ item ∈ lower, item.1.1 ≠ group) (tensors : List (Tensor δ α)) :
    (lower ++ groupItems group 0 (tensors.map TagState.tensor)).map (Handler.markOffloaded group) =
      lower ++ groupItems group 0 (tensors.map offloadedState) := by
  rw [map_append]
  congr 1
  · refine (map_congr_left fun item hitem => ?_).trans (map_id lower)
    obtain ⟨tag, state⟩ := item
    cases state with
    | tensor t => exact if_neg (hlower _ hitem)
    | offloaded key shape => rfl
  · unfold groupItems
    rw [zipIdx_map, zipIdx_map, map_map, map_map, map_map]
    apply map_congr_left
    intro p _
    exact if_pos rfl

/-- The copies of the tensors of a group. -/
def mappingOf (tensors : List (Tensor δ α)) : List (Key δ × CpuBackup δ α) :=
  tensors.foldl Handler.addToMapping []

theorem bulkOffloadGroup_eq {h : Handler δ α} (group : Nat) (lower : List (Tag × TagState δ α))
    (tensors : List (Tensor δ α)) (hlower : ∀ item ∈ lower, item.1.1 ≠ group)
    (hstate : h.tensorTagToState = lower ++ groupItems group 0 (tensors.map .tensor))
    (hmapping : ∀ item ∈ h.groupOffloadMapping, item.1 ≠ group) :
    h.bulkOffloadGroup group =
      .ok { h with
        tensorTagToState := lower ++ groupItems group 0 (tensors.map offloadedState)
        groupOffloadMapping := h.groupOffloadMapping ++ [(group, mappingOf tensors)] } := by
  have hitems : (h.tensorTagToState.filter fun item => item.1.1 == group) =
      groupItems group 0 (tensors.map .tensor) := by
    rw [hstate, filter_append, filter_eq_nil_iff.2, filter_eq_self.2, nil_append]
    · intro item hitem
      rw [beq_iff_eq]
      exact fst_of_mem_groupItems hitem
    · grind
  have htensors : (groupItems group 0 (tensors.map .tensor)).mapM
      (fun item => Handler.stateTensor item.2) = (.ok tensors : Except PyErr _) := by
    have hsnd : (groupItems group 0 (tensors.map TagState.tensor)).mapM
          (Handler.stateTensor ∘ Prod.snd) =
        ((groupItems group 0 (tensors.map TagState.tensor)).map Prod.snd).mapM
          Handler.stateTensor := mapM_map.symm
    refine hsnd.trans ?_
    rw [map_snd_groupItems, mapM_map]
    exact (mapM_eq_ok_map _ id _ fun _ _ => rfl).trans (congrArg _ (map_id _))
  have hkeep : (h.groupOffloadMapping.filter fun item => item.1 != group) =
      h.groupOffloadMapping := by
    rw [filter_eq_self]
    intro item hitem
    rw [bne_iff_ne]
    exact hmapping item hitem
  unfold Handler.bulkOffloadGroup
  dsimp only
  rw [hitems, htensors, hkeep, hstate, map_markOffloaded hlower]
  rfl

end Offloading

/-! ## Lemmas: whole layers in the forward -/

section Forward

variable [DecidableEq δ]

/-- The items of layers whose groups are on the CPU. -/
def offloadedItems (layers : List (Layer δ α)) : List (Tag × TagState δ α) :=
  layers.zipIdx.flatMap fun p => groupItems p.2 0 (p.1.pushed.map offloadedState)

def freedItems (layers : List (Layer δ α)) : List (Tag × Option (Tensor δ α)) :=
  layers.zipIdx.flatMap fun p => groupItems p.2 0 (p.1.pushed.map fun _ => none)

def mappingsOf (layers : List (Layer δ α)) : List (Nat × List (Key δ × CpuBackup δ α)) :=
  layers.zipIdx.map fun p => (p.2, mappingOf p.1.pushed)

variable {layers : List (Layer δ α)} {h : Handler δ α}

omit [DecidableEq δ] in
theorem offloadedItems_append (lower : List (Layer δ α)) (top : Layer δ α) :
    offloadedItems (lower ++ [top]) =
      offloadedItems lower ++ groupItems lower.length 0 (top.pushed.map offloadedState) := by
  unfold offloadedItems
  rw [zipIdx_append]
  simp

omit [DecidableEq δ] in
theorem freedItems_append (lower : List (Layer δ α)) (top : Layer δ α) :
    freedItems (lower ++ [top]) =
      freedItems lower ++ groupItems lower.length 0 (top.pushed.map fun _ => none) := by
  unfold freedItems
  rw [zipIdx_append]
  simp

theorem mappingsOf_append (lower : List (Layer δ α)) (top : Layer δ α) :
    mappingsOf (lower ++ [top]) = mappingsOf lower ++ [(lower.length, mappingOf top.pushed)] := by
  unfold mappingsOf
  rw [zipIdx_append, map_append, Nat.zero_add]
  rfl

omit [DecidableEq δ] in
theorem group_lt_of_mem_offloadedItems {item : Tag × TagState δ α}
    (h : item ∈ offloadedItems layers) : item.1.1 < layers.length := by
  obtain ⟨p, hp, hitem⟩ := mem_flatMap.1 h
  rw [fst_of_mem_groupItems hitem]
  exact snd_lt_of_mem_zipIdx hp

omit [DecidableEq δ] in
theorem group_lt_of_mem_freedItems
    {item : Tag × Option (Tensor δ α)} (h : item ∈ freedItems layers) :
    item.1.1 < layers.length ∧ item.2 = none := by
  obtain ⟨p, hp, hitem⟩ := mem_flatMap.1 h
  constructor
  · rw [fst_of_mem_groupItems hitem]
    exact snd_lt_of_mem_zipIdx hp
  · have hsnd := mem_map_of_mem (f := Prod.snd) hitem
    rw [map_snd_groupItems] at hsnd
    obtain ⟨t, -, heq⟩ := mem_map.1 hsnd
    exact heq.symm

theorem group_lt_of_mem_mappingsOf
    {item : Nat × List (Key δ × CpuBackup δ α)} (h : item ∈ mappingsOf layers) :
    item.1 < layers.length := by
  obtain ⟨p, hp, rfl⟩ := mem_map.1 h
  exact snd_lt_of_mem_zipIdx hp

/-- The windows of a model with one layer more than groups. -/
def windows (numOffloadGroup : Nat) : List Int :=
  (List.range numOffloadGroup).map fun (i : Nat) => (i : Int) + 1

/-- Between two layers in the forward: `top` has just been offloaded, and its buffers are kept. -/
def between (numOffloadGroup : Nat) (lower : List (Layer δ α)) (top : Layer δ α) :
    Handler δ α where
  numOffloadGroup := numOffloadGroup
  layerWindowMap := windows numOffloadGroup
  currentGroup := lower.length + 1
  tensorCountCurrentGroup := 0
  tensorTagToState := offloadedItems (lower ++ [top])
  tensorTagToBuf := freedItems lower ++ groupItems lower.length 0 (top.pushed.map some)
  offloadedGroupCount := lower.length
  groupOffloadMapping := mappingsOf (lower ++ [top])

/-- Before the backward of the layer above `lower`, whose tensors are `tensors`. -/
def ready (numOffloadGroup : Nat) (lower buffered : List (Layer δ α))
    (tensors : List (Tensor δ α)) : Handler δ α where
  numOffloadGroup := numOffloadGroup
  layerWindowMap := windows numOffloadGroup
  currentGroup := lower.length + 1
  tensorCountCurrentGroup := 0
  tensorTagToState := offloadedItems lower ++ groupItems lower.length 0 (tensors.map .tensor)
  tensorTagToBuf := freedItems buffered
  offloadedGroupCount := max 1 lower.length
  groupOffloadMapping := mappingsOf lower

omit [DecidableEq δ] in
theorem new_eq {numOffloadGroup : Nat} (h : 2 ≤ numOffloadGroup) :
    (Handler.new numOffloadGroup (numOffloadGroup + 1) : Handler δ α) = {
      numOffloadGroup := numOffloadGroup
      layerWindowMap := windows numOffloadGroup
      currentGroup := 0
      tensorCountCurrentGroup := 0
      tensorTagToState := []
      tensorTagToBuf := []
      offloadedGroupCount := 0
      groupOffloadMapping := [] } := by
  have hdiv : (numOffloadGroup + 1) / numOffloadGroup = 1 := by
    rw [Nat.div_eq_iff (by omega)]
    omega
  have hmod : (numOffloadGroup + 1) % numOffloadGroup = 1 := by
    rw [Nat.add_mod_left, Nat.mod_eq_of_lt (by omega)]
  have hstep : ∀ k, (range k).foldl (windowStep (numOffloadGroup + 1) numOffloadGroup) ([], 0) =
      (windows k, min k 1) := by
    intro k
    induction k with
    | zero => rfl
    | succ k ih =>
      have hwindows : windows (k + 1) = windows k ++ [(k : Int) + 1] := by
        simp [windows, range_succ]
      rw [range_succ, foldl_append, ih]
      show windowStep _ _ _ _ = _
      unfold windowStep
      rw [hdiv]
      by_cases hk : k < 1
      · grind
      · grind
  unfold Handler.new
  rw [hstep]

omit [DecidableEq δ] in
theorem layerWindow_windows {i : Nat}
    (hwindows : h.layerWindowMap = windows h.numOffloadGroup) (hi : i < h.numOffloadGroup) :
    h.layerWindow i = .ok ((i : Int) + 1) := by
  unfold Handler.layerWindow
  rw [hwindows]
  unfold windows
  rw [getElem?_map, getElem?_range hi]
  rfl

theorem onGroupCommitForward_first (tensors : List (Tensor δ α))
    (hwindows : h.layerWindowMap = windows h.numOffloadGroup) (hgroups : 2 ≤ h.numOffloadGroup)
    (hcurrent : h.currentGroup = 0) (hcount : h.offloadedGroupCount = 0)
    (hstate : h.tensorTagToState = groupItems 0 0 (tensors.map .tensor))
    (hmapping : h.groupOffloadMapping = []) :
    h.onGroupCommitForward = .ok { h with
      currentGroup := 1
      tensorCountCurrentGroup := 0
      tensorTagToState := groupItems 0 0 (tensors.map offloadedState)
      groupOffloadMapping := [(0, mappingOf tensors)] } := by
  have hstart := bulkOffloadGroup_eq 0 [] tensors (by simp) hstate
    (by simp [hmapping])
  rw [hmapping] at hstart
  unfold Handler.onGroupCommitForward Handler.synchronizeOnGroupCommitForward Handler.startOffload
  rw [hcurrent, if_pos rfl, hstart, ok_bind]
  rw [hcount, layerWindow_windows (i := 0) (by exact hwindows)
    (by show 0 < h.numOffloadGroup; omega)]
  rw [hcurrent]
  rfl

def freed (h : Handler δ α) (group : Nat) : Handler δ α :=
  { h with tensorTagToBuf := h.tensorTagToBuf.map (Handler.freeBuf group) }

theorem finishOffload_eq {h' : Handler δ α}
    (hnext : (if h.offloadedGroupCount + 1 < h.numOffloadGroup then
        (freed h h.offloadedGroupCount).bulkOffloadGroup (h.offloadedGroupCount + 1)
      else .ok (freed h h.offloadedGroupCount)) = .ok h') :
    h.finishOffload = .ok { h' with offloadedGroupCount := h.offloadedGroupCount + 1 } := by
  unfold Handler.finishOffload
  by_cases hlt : h.offloadedGroupCount + 1 < h.numOffloadGroup
  · rw [if_pos hlt] at hnext ⊢
    show (do let h₁ ← (freed h h.offloadedGroupCount).bulkOffloadGroup _; return _) = _
    rw [hnext]
    rfl
  · rw [if_neg hlt] at hnext ⊢
    cases hnext
    rfl

theorem onGroupCommitForward_next {h' : Handler δ α} {k : Nat}
    (hwindows : h.layerWindowMap = windows h.numOffloadGroup) (hk : k < h.numOffloadGroup)
    (hcurrent : h.currentGroup = k + 1) (hcount : h.offloadedGroupCount = k)
    (hnext : (if k + 1 < h.numOffloadGroup then (freed h k).bulkOffloadGroup (k + 1)
      else .ok (freed h k)) = .ok h') :
    h.onGroupCommitForward = .ok { h' with
      currentGroup := h'.currentGroup + 1
      tensorCountCurrentGroup := 0
      offloadedGroupCount := k + 1 } := by
  have hwindow : ((k : Int) + 1) = ((k + 1 : Nat) : Int) := by omega
  subst hcount
  unfold Handler.onGroupCommitForward Handler.synchronizeOnGroupCommitForward Handler.startOffload
  rw [hcurrent, if_neg (by omega), ok_bind, layerWindow_windows hwindows hk,
    ok_bind, if_pos hwindow, finishOffload_eq hnext]
  rfl

omit [DecidableEq δ] in
theorem map_freeBuf (lower : List (Layer δ α)) (top : Layer δ α)
    (above : List (Tag × Option (Tensor δ α))) (habove : ∀ item ∈ above, item.1.1 ≠ lower.length) :
    (freedItems lower ++ groupItems lower.length 0 (top.pushed.map some) ++ above).map
        (Handler.freeBuf lower.length) =
      freedItems (lower ++ [top]) ++ above := by
  have hkeep : ∀ items : List (Tag × Option (Tensor δ α)),
      (∀ item ∈ items, item.1.1 ≠ lower.length) →
        items.map (Handler.freeBuf lower.length) = items := by
    intro items hitems
    refine (map_congr_left fun item hitem => ?_).trans (map_id items)
    exact if_neg (hitems item hitem)
  have htop : (groupItems lower.length 0 (top.pushed.map some)).map
      (Handler.freeBuf lower.length) =
        groupItems lower.length 0 (top.pushed.map fun _ => none) := by
    unfold groupItems
    rw [zipIdx_map, zipIdx_map, map_map, map_map, map_map]
    apply map_congr_left
    intro p _
    exact if_pos rfl
  rw [map_append, map_append, htop, hkeep above habove, hkeep, freedItems_append]
  intro item hitem
  exact (group_lt_of_mem_freedItems hitem).1.ne

theorem forwardLayer_first {numOffloadGroup : Nat} (hgroups : 2 ≤ numOffloadGroup)
    (layer : Layer δ α) :
    forwardLayer (Handler.new numOffloadGroup (numOffloadGroup + 1)) layer =
      .ok (between numOffloadGroup [] layer, tagsOf 0 0 layer.saved) := by
  have hfresh : FreshTags (Handler.new numOffloadGroup (numOffloadGroup + 1) : Handler δ α) := by
    constructor
    · intro item hitem
      cases hitem
    · intro item hitem
      cases hitem
  unfold forwardLayer
  rw [pushAll_eq hfresh, ok_bind, new_eq hgroups]
  dsimp only
  rw [onGroupCommitForward_first layer.pushed rfl hgroups rfl rfl rfl rfl]
  unfold pushedState between
  dsimp only
  rw [if_pos (by omega), offloadedItems_append]
  rfl

section Between

variable {numOffloadGroup : Nat} (lower : List (Layer δ α)) (top layer : Layer δ α)

theorem freshTags_between : FreshTags (between numOffloadGroup lower top) := by
  constructor
  · intro item hitem hgroup
    have hlt := group_lt_of_mem_offloadedItems hitem
    rw [length_append] at hlt
    exact absurd hgroup hlt.ne
  · intro item hitem hgroup
    have hgroup : item.1.1 = lower.length + 1 := hgroup
    rcases mem_append.1 hitem with hitem | hitem
    · have hlt := (group_lt_of_mem_freedItems hitem).1
      omega
    · have heq := fst_of_mem_groupItems hitem
      omega

theorem forwardLayer_middle (hlt : lower.length + 1 < numOffloadGroup) :
    forwardLayer (between numOffloadGroup lower top) layer =
      .ok (between numOffloadGroup (lower ++ [top]) layer,
        tagsOf (lower.length + 1) 0 layer.saved) := by
  have hlength : (lower ++ [top]).length = lower.length + 1 := length_append
  have hgroups : lower.length < numOffloadGroup := by omega
  unfold forwardLayer
  rw [pushAll_eq (freshTags_between lower top), ok_bind]
  dsimp only
  have hbuf : (freed (pushedState (between numOffloadGroup lower top) layer.saved)
      lower.length).tensorTagToBuf = freedItems (lower ++ [top]) ++
        groupItems (lower.length + 1) 0 (layer.pushed.map some) := by
    refine Eq.trans ?_ (map_freeBuf lower top _ ?_)
    · exact congrArg _ (if_pos hlt)
    · intro item hitem
      rw [fst_of_mem_groupItems hitem]
      omega
  have hnext := bulkOffloadGroup_eq
    (h := freed (pushedState (between numOffloadGroup lower top) layer.saved) lower.length)
    (lower.length + 1) (offloadedItems (lower ++ [top])) layer.pushed
    (fun item hitem => by
      have hlt := group_lt_of_mem_offloadedItems hitem
      omega)
    rfl
    (fun item hitem => by
      have hlt := group_lt_of_mem_mappingsOf hitem
      omega)
  rw [onGroupCommitForward_next (k := lower.length) rfl hgroups rfl rfl
    ((if_pos hlt).trans hnext), hbuf]
  unfold between
  rw [offloadedItems_append (lower ++ [top]), mappingsOf_append (lower ++ [top]), hlength]
  rfl

theorem forwardLayer_last (hlast : lower.length + 1 = numOffloadGroup) :
    forwardLayer (between numOffloadGroup lower top) layer =
      .ok (ready numOffloadGroup (lower ++ [top]) (lower ++ [top]) layer.pushed,
        tagsOf (lower.length + 1) 0 layer.saved) := by
  have hlength : (lower ++ [top]).length = lower.length + 1 := length_append
  have hgroups : lower.length < numOffloadGroup := by omega
  unfold forwardLayer
  rw [pushAll_eq (freshTags_between lower top), ok_bind]
  dsimp only
  have hbuf : (freed (pushedState (between numOffloadGroup lower top) layer.saved)
      lower.length).tensorTagToBuf = freedItems (lower ++ [top]) := by
    have hkeep := map_freeBuf lower top [] (by simp)
    rw [append_nil, append_nil] at hkeep
    refine Eq.trans ?_ hkeep
    exact congrArg _ (if_neg (by exact Nat.not_lt.2 hlast.ge))
  rw [onGroupCommitForward_next (k := lower.length) rfl hgroups rfl rfl
    (if_neg (by exact Nat.not_lt.2 hlast.ge)), hbuf]
  unfold ready
  have hmax : max 1 (lower.length + 1) = lower.length + 1 := by omega
  rw [hlength]
  rfl

end Between

end Forward

end Verl.Offload
