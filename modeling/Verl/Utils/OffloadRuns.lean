import Verl.Utils.ActivationOffload

/-! # Runs of the offload handler (`utils/activation_offload.py`)

The backward of the layers, and whole training steps.

`train_right_iff`: an iteration fetches what was saved, without an error, and leaves the handler as
it was, exactly when in every layer but the last the tensors that share a copy have the same
elements in the same order.  A pop of a tensor that is still offloaded would be an error, so that
every group is reloaded before its first pop. -/

namespace Verl.Offload

open List

variable {δ α : Type}

/-! ## Lemmas: reloading a group -/

section Reload

variable [DecidableEq δ] (alloc : CpuBackup δ α → Nat)

omit [DecidableEq δ] in
theorem lookup_append_singleton {κ β : Type} [BEq κ] (items : List (κ × β)) (k key : κ) (b : β) :
    (items ++ [(k, b)]).lookup key = (items.lookup key).or (if key == k then some b else none) := by
  induction items with
  | nil =>
    rw [nil_append, lookup_cons]
    cases key == k <;> rfl
  | cons item items ih =>
    rw [cons_append, lookup_cons, lookup_cons, ih]
    cases key == item.1 <;> rfl

/-- The copy of a key is that of the first tensor with it. -/
theorem lookup_foldl_addToMapping (tensors : List (Tensor δ α))
    (mapping : List (Key δ × CpuBackup δ α)) (key : Key δ) :
    (tensors.foldl Handler.addToMapping mapping).lookup key =
      (mapping.lookup key).or ((tensors.find? fun t => getUniqueTensorKey t = key).map offload) := by
  induction tensors generalizing mapping with
  | nil => exact Option.or_none.symm
  | cons t tensors ih =>
    rw [foldl_cons, ih, find?_cons]
    unfold Handler.addToMapping
    by_cases hmem : getUniqueTensorKey t ∈ mapping.map Prod.fst
    · rw [if_pos hmem]
      by_cases hkey : getUniqueTensorKey t = key
      · obtain ⟨backup, hbackup⟩ : ∃ backup, mapping.lookup key = some backup := by
          rw [← hkey]
          cases hlookup : mapping.lookup (getUniqueTensorKey t) with
          | some backup => exact ⟨backup, rfl⟩
          | none =>
            obtain ⟨item, hitem, heq⟩ := mem_map.1 hmem
            have hne := lookup_eq_none_iff.1 hlookup item hitem
            rw [heq, bne_self_eq_false] at hne
            cases hne
        rw [hbackup]
        rfl
      · rw [decide_eq_false hkey]
    · grind

theorem lookup_mappingOf (layer : Layer δ α) (t : Tensor δ α) :
    (mappingOf layer.pushed).lookup (getUniqueTensorKey t) = (layer.firstAlias t).map offload :=
  (lookup_foldl_addToMapping _ _ _).trans Option.none_or

/-- What a tensor of a layer comes back as. -/
def recover (layer : Layer δ α) (t : Tensor δ α) : Tensor δ α :=
  match layer.firstAlias t with
  | some first =>
    match reloadView (alloc (offload first)) (offload first) t.shape with
    | .ok t' => t'
    | .error _ => t
  | none => t

/-- Every tensor can be viewed in its copy. -/
def Layer.ViewsFit (layer : Layer δ α) : Prop :=
  ∀ t ∈ layer.pushed, ∀ first, layer.firstAlias t = some first → first.elems.length = t.shape.prod

theorem exists_firstAlias {layer : Layer δ α} {t : Tensor δ α} (ht : t ∈ layer.pushed) :
    ∃ first, layer.firstAlias t = some first := by
  unfold Layer.firstAlias
  cases hfind : layer.pushed.find? fun t' => getUniqueTensorKey t' = getUniqueTensorKey t with
  | some first => exact ⟨first, rfl⟩
  | none =>
    have hne := find?_eq_none.1 hfind t ht
    rw [decide_eq_true rfl] at hne
    exact absurd rfl hne

section

variable (tag : Tag) {layer : Layer δ α} {t : Tensor δ α} {first : Tensor δ α}
  (hfirst : layer.firstAlias t = some first)
include tag hfirst

theorem reloadItem_eq (hfits : first.elems.length = t.shape.prod) :
    Handler.reloadItem alloc tag.1 (mappingOf layer.pushed) (tag, offloadedState t) =
        .ok (tag, .tensor (recover alloc layer t)) ∧
      (recover alloc layer t).shape = t.shape ∧ (recover alloc layer t).elems = first.elems := by
  have hview : reloadView (alloc (offload first)) (offload first) t.shape = .ok {
      toStrided := .contiguous first.elems t.shape hfits
      dataPtr := alloc (offload first)
      dtype := first.dtype } := dif_pos hfits
  have hrecover : recover alloc layer t = {
      toStrided := .contiguous first.elems t.shape hfits
      dataPtr := alloc (offload first)
      dtype := first.dtype } := by simp [recover, hfirst, hview]
  refine ⟨?_, ?_, ?_⟩
  · unfold Handler.reloadItem offloadedState
    dsimp only
    rw [if_pos rfl, lookup_mappingOf, hfirst]
    show (reloadView _ _ _).map _ = _
    rw [hview, hrecover]
    rfl
  · rw [hrecover]
    exact Strided.shape_contiguous _ _ hfits
  · rw [hrecover]
    exact Strided.elems_contiguous _ _ hfits

theorem reloadItem_error (hfits : first.elems.length ≠ t.shape.prod) (item : Tag × TagState δ α) :
    Handler.reloadItem alloc tag.1 (mappingOf layer.pushed) (tag, offloadedState t) ≠ .ok item := by
  unfold Handler.reloadItem offloadedState
  dsimp only
  rw [if_pos rfl, lookup_mappingOf, hfirst]
  show (reloadView _ (offload first) t.shape).map _ ≠ _
  have hfits' : ¬(offload first).elems.length = t.shape.prod := hfits
  unfold reloadView
  rw [dif_neg hfits']
  intro h
  cases h

end

/-- Items of other groups, and tensors, stay. -/
theorem reloadItem_other {group : Nat} {mapping : List (Key δ × CpuBackup δ α)}
    {item : Tag × TagState δ α} (h : item.1.1 ≠ group ∨ ∃ t, item.2 = .tensor t) :
    Handler.reloadItem alloc group mapping item = .ok item := by
  obtain ⟨tag, state⟩ := item
  cases state with
  | tensor t => rfl
  | offloaded key shape =>
    rcases h with h | ⟨t, h⟩
    · exact if_neg h
    · cases h

theorem mapM_append_ok {ε β γ : Type} {f : β → Except ε γ} {xs ys : List β} {xs' ys' : List γ}
    (hx : xs.mapM f = .ok xs') (hy : ys.mapM f = .ok ys') :
    (xs ++ ys).mapM f = .ok (xs' ++ ys') := by
  rw [mapM_append, hx, hy]
  rfl

theorem lookup_mappingsOf (lower : List (Layer δ α)) (top : Layer δ α) :
    (mappingsOf (lower ++ [top])).lookup lower.length = some (mappingOf top.pushed) := by
  have hnone : (mappingsOf lower).lookup lower.length = none := by
    rw [lookup_eq_none_iff]
    intro item hitem
    rw [bne_iff_ne]
    exact (group_lt_of_mem_mappingsOf hitem).ne'
  rw [mappingsOf_append, lookup_append_singleton, hnone, beq_self_eq_true]
  rfl

theorem bulkReloadGroup_eq {h : Handler δ α} (lower : List (Layer δ α)) (top : Layer δ α)
    (above : List (Tag × TagState δ α)) (hgroup : lower.length < h.numOffloadGroup)
    (hstate : h.tensorTagToState = offloadedItems (lower ++ [top]) ++ above)
    (habove : ∀ item ∈ above, item.1.1 ≠ lower.length)
    (hmapping : h.groupOffloadMapping = mappingsOf (lower ++ [top])) (hfits : top.ViewsFit) :
    h.bulkReloadGroup alloc lower.length = .ok { h with
      tensorTagToState := offloadedItems lower ++ (groupItems lower.length 0
        ((top.pushed.map (recover alloc top)).map .tensor) ++ above)
      groupOffloadMapping := mappingsOf lower } := by
  have hfilter : ((mappingsOf (lower ++ [top])).filter fun item => item.1 != lower.length) =
      mappingsOf lower := by
    rw [mappingsOf_append, filter_append, filter_eq_self.2]
    · simp
    · intro item hitem
      rw [bne_iff_ne]
      exact (group_lt_of_mem_mappingsOf hitem).ne
  have hlower : (offloadedItems lower).mapM
      (Handler.reloadItem alloc lower.length (mappingOf top.pushed)) = .ok (offloadedItems lower) := by
    refine (mapM_eq_ok_map _ id _ fun item hitem => ?_).trans (congrArg _ (map_id _))
    exact reloadItem_other alloc (.inl (group_lt_of_mem_offloadedItems hitem).ne)
  have habove' : above.mapM (Handler.reloadItem alloc lower.length (mappingOf top.pushed)) =
      .ok above := by
    refine (mapM_eq_ok_map _ id _ fun item hitem => ?_).trans (congrArg _ (map_id _))
    exact reloadItem_other alloc (.inl (habove item hitem))
  have htop : (groupItems lower.length 0 (top.pushed.map offloadedState)).mapM
      (Handler.reloadItem alloc lower.length (mappingOf top.pushed)) =
        .ok (groupItems lower.length 0 ((top.pushed.map (recover alloc top)).map .tensor)) := by
    unfold groupItems
    rw [zipIdx_map, map_map, map_map, zipIdx_map, map_map, mapM_map]
    refine mapM_eq_ok_map _ _ _ fun p hp => ?_
    have ht : p.1 ∈ top.pushed := fst_mem_of_mem_zipIdx hp
    obtain ⟨first, hfirst⟩ := exists_firstAlias ht
    exact (reloadItem_eq alloc (lower.length, p.2) hfirst (hfits _ ht _ hfirst)).1
  unfold Handler.bulkReloadGroup
  rw [decide_eq_true hgroup, hmapping, lookup_mappingsOf, hstate]
  dsimp only
  rw [offloadedItems_append, append_assoc, mapM_append_ok hlower (mapM_append_ok htop habove'), hfilter]
  rfl

/-- A reload that returns has viewed every tensor. -/
theorem viewsFit_of_bulkReloadGroup {h h' : Handler δ α} {lower : List (Layer δ α)}
    {top : Layer δ α} {above : List (Tag × TagState δ α)}
    (hstate : h.tensorTagToState = offloadedItems (lower ++ [top]) ++ above)
    (hmapping : h.groupOffloadMapping = mappingsOf (lower ++ [top]))
    (hok : h.bulkReloadGroup alloc lower.length = .ok h') : top.ViewsFit := by
  intro t ht first hfirst
  by_contra hfits
  obtain ⟨-, -, hok⟩ := bind_eq_ok.1 hok
  rw [hmapping, lookup_mappingsOf, hstate] at hok
  obtain ⟨items, hitems, -⟩ := bind_eq_ok.1 hok
  obtain ⟨i, hi⟩ := mem_iff_getElem?.1 ht
  have hmem : ((lower.length, i), offloadedState t) ∈ offloadedItems (lower ++ [top]) ++ above := by
    simp [groupItems, offloadedItems_append, mem_zipIdx_iff_getElem?, hi]
  obtain ⟨item, hitem⟩ := exists_mapM_iff.1 ⟨items, hitems⟩ _ hmem
  exact reloadItem_error alloc (lower.length, i) hfirst hfits item hitem

end Reload

/-! ## Lemmas: the backward of a layer -/

/-- The tags among what autograd keeps. -/
def tagsIn (ids : List (TensorTag δ α)) : List Tag :=
  ids.filterMap fun
    | .tag tag => some tag
    | .tensor _ => none

/-- What a pop returns. -/
def Fetches (items : List (Tag × TagState δ α)) : TensorTag δ α → Tensor δ α → Prop
  | .tag tag, t => items.lookup tag = some (.tensor t)
  | .tensor t', t => t' = t

/-- The handler without the tags. -/
def popped (h : Handler δ α) (tags : List Tag) : Handler δ α :=
  { h with
    tensorTagToState := h.tensorTagToState.filter fun item => item.1 ∉ tags
    tensorTagToBuf := h.tensorTagToBuf.filter fun item => item.1 ∉ tags }

theorem popped_cons (h : Handler δ α) (tag : Tag) (tags : List Tag) : popped { h with
      tensorTagToState := h.tensorTagToState.filter fun item => item.1 != tag
      tensorTagToBuf := h.tensorTagToBuf.filter fun item => item.1 != tag } tags =
        popped h (tag :: tags) := by
  have hfilter : ∀ {σ : Type} (items : List (Tag × σ)),
      (items.filter fun item => item.1 != tag).filter (fun item => item.1 ∉ tags) =
        items.filter fun item => item.1 ∉ tag :: tags := by
    intro σ items
    rw [filter_filter]
    apply filter_congr
    intro item _
    rw [Bool.eq_iff_iff, Bool.and_eq_true, decide_eq_true_eq, bne_iff_ne, decide_eq_true_eq,
      mem_cons, not_or, And.comm]
  unfold popped
  simp only [hfilter]

section

variable {h : Handler δ α} {ids : List (TensorTag δ α)} {fetched : List (Tensor δ α)}
  (hf : Forall₂ (Fetches h.tensorTagToState) ids fetched) (hnodup : (tagsIn ids).Nodup)
include hf hnodup

theorem foldlM_tensorPop (tensors : List (Tensor δ α)) :
    ids.foldlM (fun ((h, tensors) : Handler δ α × List (Tensor δ α)) tag => do
        let (h, tensor) ← h.tensorPop tag
        return (h, tensors ++ [tensor])) (h, tensors) =
      (.ok (popped h (tagsIn ids), tensors ++ fetched) : Except PyErr _) := by
  induction ids generalizing h tensors fetched with
  | nil =>
    cases hf
    simp [popped, tagsIn]
    rfl
  | cons id ids ih =>
    cases hf with
    | cons hid hf =>
      rename_i t fetched
      rw [foldlM_cons]
      cases id with
      | tensor t' =>
        subst hid
        refine (ih hf hnodup (tensors ++ [t'])).trans ?_
        rw [append_assoc]
        rfl
      | tag tag =>
        have hlookup : h.tensorTagToState.lookup tag = some (.tensor t) := hid
        have hpop : h.tensorPop (.tag tag) = .ok ({ h with
            tensorTagToState := h.tensorTagToState.filter fun item => item.1 != tag
            tensorTagToBuf := h.tensorTagToBuf.filter fun item => item.1 != tag }, t) := by
          simp [Handler.tensorPop, hlookup]
        obtain ⟨hnew, hnodup⟩ := nodup_cons.1 (show (tag :: tagsIn ids).Nodup from hnodup)
        have hkeep : ∀ id ∈ ids, ∀ t, Fetches h.tensorTagToState id t →
            Fetches (h.tensorTagToState.filter fun item => item.1 != tag) id t := by
          intro id hmem t hfetch
          cases id with
          | tensor t' => exact hfetch
          | tag tag' =>
            have hne : tag' ≠ tag := by
              rintro rfl
              exact hnew (mem_filterMap.2 ⟨_, hmem, rfl⟩)
            exact (lookup_filter_ne hne).trans hfetch
        have hmem := (forall₂_and_left (p := (· ∈ ids)) ids fetched).2 ⟨fun _ h => h, hf⟩
        dsimp only
        rw [hpop]
        refine (ih (hmem.imp fun id t h => hkeep id h.1 t h.2) hnodup _).trans ?_
        rw [popped_cons, append_assoc]
        rfl

theorem popAll_eq : popAll h ids = .ok (popped h (tagsIn ids), fetched) :=
  foldlM_tensorPop hf hnodup []

end

/-- A saved tensor, with what stands for the ones that get a tag. -/
def valueOf (restore : Tensor δ α → Tensor δ α) (s : Saved δ α) : Tensor δ α :=
  if s.needOffload then restore s.tensor else s.tensor

/-- What the backward of a layer fetches. -/
def fetchedOf (restore : Tensor δ α → Tensor δ α) (layer : Layer δ α) : List (Tensor δ α) :=
  layer.fetched.filterMap fun i => (layer.saved.map (valueOf restore))[i]?

theorem fetches_tagsOf {group : Nat} {items : List (Tag × TagState δ α)}
    {restore : Tensor δ α → Tensor δ α} (n : Nat) (saved : List (Saved δ α))
    (hlookup : ∀ k, items.lookup (group, n + k) =
      (pushedOf saved)[k]?.map fun t => .tensor (restore t)) :
    Forall₂ (Fetches items) (tagsOf group n saved) (saved.map (valueOf restore)) := by
  induction saved generalizing n with
  | nil => exact .nil
  | cons s saved ih =>
    unfold tagsOf
    by_cases hs : s.needOffload = true
    · have hcons : pushedOf (s :: saved) = s.tensor :: pushedOf saved := by
        simp [pushedOf, filter_cons_of_pos hs]
      rw [hcons] at hlookup
      rw [if_pos hs]
      refine .cons ?_ (ih (n + 1) fun k => ?_)
      · show items.lookup (group, n) = some (.tensor (valueOf restore s))
        rw [show n = n + 0 from rfl, hlookup 0]
        unfold valueOf
        rw [if_pos hs]
        rfl
      · rw [Nat.add_assoc, Nat.add_comm 1, hlookup (k + 1), getElem?_cons_succ]
    · have hcons : pushedOf (s :: saved) = pushedOf saved := by
        unfold pushedOf
        rw [filter_cons_of_neg hs]
      rw [hcons] at hlookup
      rw [if_neg hs]
      refine .cons ?_ (ih n hlookup)
      show s.tensor = valueOf restore s
      unfold valueOf
      rw [if_neg hs]

theorem tagsIn_tagsOf (group n : Nat) (saved : List (Saved δ α)) : tagsIn (tagsOf group n saved) =
      (range' n (pushedOf saved).length).map fun i => (group, i) := by
  induction saved generalizing n with
  | nil => rfl
  | cons s saved ih =>
    unfold tagsOf pushedOf
    by_cases hs : s.needOffload = true
    · rw [if_pos hs, filter_cons_of_pos hs]
      exact congrArg _ (ih (n + 1))
    · rw [if_neg hs, filter_cons_of_neg hs]
      exact ih n

theorem length_tagsOf (group n : Nat) (saved : List (Saved δ α)) :
    (tagsOf group n saved).length = saved.length := by
  induction saved generalizing n with
  | nil => rfl
  | cons s saved ih =>
    unfold tagsOf
    by_cases hs : s.needOffload = true
    · grind
    · grind

theorem forall₂_filterMap_getElem? {β γ : Type} {R : β → γ → Prop} {xs : List β} {ys : List γ}
    (h : Forall₂ R xs ys) (idxs : List Nat) :
    Forall₂ R (idxs.filterMap fun i => xs[i]?) (idxs.filterMap fun i => ys[i]?) := by
  obtain ⟨hlen, hget⟩ := forall₂_iff_get.1 h
  induction idxs with
  | nil => exact .nil
  | cons i idxs ih =>
    rw [filterMap_cons, filterMap_cons]
    by_cases hi : i < xs.length
    · rw [getElem?_eq_getElem hi, getElem?_eq_getElem (hlen ▸ hi)]
      exact .cons (hget i hi (hlen ▸ hi)) ih
    · grind

theorem filterMap_getElem?_range' {β : Type} (before xs : List β) :
    ((range' before.length xs.length).filterMap fun i => (before ++ xs)[i]?) = xs := by
  induction xs generalizing before with
  | nil => rfl
  | cons x xs ih =>
    have hcons : before ++ x :: xs = (before ++ [x]) ++ xs := by simp
    have hlen : before.length + 1 = (before ++ [x]).length := by simp
    rw [length_cons, range'_succ, filterMap_cons_some (b := x) (by simp), hcons, hlen,
      ih]

theorem filterMap_getElem?_perm {β : Type} {xs : List β} {idxs : List Nat}
    (h : idxs.Perm (range xs.length)) : (idxs.filterMap fun i => xs[i]?).Perm xs := by
  refine (h.filterMap _).trans (Perm.of_eq ?_)
  rw [range_eq_range']
  exact filterMap_getElem?_range' [] xs

section Backward

variable {group : Nat} (layer : Layer δ α)

/-- The tags of a layer, in the order of its backward. -/
def fetchedTags (group : Nat) (layer : Layer δ α) : List (TensorTag δ α) :=
  layer.fetched.filterMap fun i => (tagsOf group 0 layer.saved)[i]?

theorem tagsIn_fetchedTags : (tagsIn (fetchedTags group layer)).Perm
    ((range layer.pushed.length).map fun i => (group, i)) := by
  have hperm : (fetchedTags group layer).Perm (tagsOf group 0 layer.saved) := by
    apply filterMap_getElem?_perm
    rw [length_tagsOf]
    exact layer.once
  refine (hperm.filterMap _).trans (Perm.of_eq ?_)
  rw [range_eq_range']
  exact tagsIn_tagsOf group 0 layer.saved

theorem filter_notMem_fetchedTags {σ : Type} {lower : List (Tag × σ)}
    (hlower : ∀ item ∈ lower, item.1.1 ≠ group) {xs : List σ} (hlen : xs.length ≤ layer.pushed.length) :
    ((lower ++ groupItems group 0 xs).filter fun item =>
      item.1 ∉ tagsIn (fetchedTags group layer)) = lower := by
  have hmem : ∀ tag, tag ∈ tagsIn (fetchedTags group layer) ↔
      tag.1 = group ∧ tag.2 < layer.pushed.length := by
    rintro ⟨g, i⟩
    rw [(tagsIn_fetchedTags layer).mem_iff, mem_map]
    constructor
    · grind
    · rintro ⟨rfl, hi⟩
      exact ⟨i, mem_range.2 hi, rfl⟩
  rw [filter_append, filter_eq_self.2, filter_eq_nil_iff.2, append_nil]
  · intro item hitem
    have htag := mem_map_fst_groupItems.1 (mem_map_of_mem (f := Prod.fst) hitem)
    rw [decide_eq_true_eq, not_not, hmem]
    exact ⟨htag.1, by omega⟩
  · grind

/-- The pops take the layer's own tensors out, and nothing else. -/
theorem popAll_layer {h : Handler δ α} (restore : Tensor δ α → Tensor δ α)
    (lower : List (Tag × TagState δ α)) (lowerBuf : List (Tag × Option (Tensor δ α)))
    {buf : List (Option (Tensor δ α))} (hlower : ∀ item ∈ lower, item.1.1 ≠ group)
    (hlowerBuf : ∀ item ∈ lowerBuf, item.1.1 ≠ group)
    (hstate : h.tensorTagToState = lower ++ groupItems group 0 ((layer.pushed.map restore).map .tensor))
    (hbuf : h.tensorTagToBuf = lowerBuf ++ groupItems group 0 buf)
    (hlen : buf.length ≤ layer.pushed.length) :
    popAll h (fetchedTags group layer) =
      .ok ({ h with tensorTagToState := lower, tensorTagToBuf := lowerBuf },
        fetchedOf restore layer) := by
  have hlookup : ∀ k, h.tensorTagToState.lookup (group, 0 + k) =
      (pushedOf layer.saved)[k]?.map fun t => .tensor (restore t) := by
    intro k
    rw [hstate, lookup_append_of_ne hlower, lookup_groupItems (Nat.zero_le _), Nat.zero_add, map_map, getElem?_map]
    rfl
  have hfetches := forall₂_filterMap_getElem? (fetches_tagsOf 0 layer.saved hlookup) layer.fetched
  have hnodup : (tagsIn (fetchedTags group layer)).Nodup := by
    rw [(tagsIn_fetchedTags layer).nodup_iff]
    exact (nodup_range).map fun i j h => (Prod.mk.inj h).2
  have hstate' : (h.tensorTagToState.filter fun item =>
      item.1 ∉ tagsIn (fetchedTags group layer)) = lower := by
    rw [hstate]
    exact filter_notMem_fetchedTags layer hlower (by simp)
  have hbuf' : (h.tensorTagToBuf.filter fun item =>
      item.1 ∉ tagsIn (fetchedTags group layer)) = lowerBuf := by
    rw [hbuf]
    exact filter_notMem_fetchedTags layer hlowerBuf hlen
  refine (popAll_eq hfetches hnodup).trans ?_
  show Except.ok (popped h (tagsIn (fetchedTags group layer)), _) = _
  unfold popped
  rw [hstate', hbuf']
  rfl

end Backward

/-! ## A training step -/

section Step

variable [DecidableEq δ] (alloc : CpuBackup δ α → Nat) {numOffloadGroup : Nat}

/-- The commit before the backward of a layer reloads the group below it. -/
theorem reloadNext_eq {h : Handler δ α} {k : Nat}
    (hwindows : h.layerWindowMap = windows h.numOffloadGroup) (hk : k < h.numOffloadGroup)
    (hcount : h.offloadedGroupCount = k + 1) (hcurrent : h.currentGroup = k + 1) :
    h.reloadNext alloc = (h.bulkReloadGroup alloc k).map fun h' =>
      { h' with offloadedGroupCount := max 1 k } := by
  have hwindow : ((k : Int) + 1) = ((k + 1 : Nat) : Int) := by omega
  unfold Handler.reloadNext
  rw [hcount]
  dsimp only
  rw [layerWindow_windows hwindows hk, ok_bind, hcurrent, if_pos hwindow]
  cases h.bulkReloadGroup alloc k with
  | error e => rfl
  | ok h' =>
    have hmax : (if 0 < k then k else k + 1) = max 1 k := by grind
    show Except.ok _ = Except.ok _
    rw [hmax]

theorem currentGroup_of_bulkReloadGroup {h h' : Handler δ α} {group : Nat}
    (hok : h.bulkReloadGroup alloc group = .ok h') : h'.currentGroup = h.currentGroup := by
  obtain ⟨-, -, hok⟩ := bind_eq_ok.1 hok
  split at hok
  · cases hok
  · obtain ⟨items, -, hok⟩ := bind_eq_ok.1 hok
    cases hok
    rfl

theorem onGroupCommitBackward_next {h : Handler δ α} {k : Nat}
    (hwindows : h.layerWindowMap = windows h.numOffloadGroup) (hk : k < h.numOffloadGroup)
    (hcount : h.offloadedGroupCount = k + 1) (hcurrent : h.currentGroup = k + 1 + 1) :
    h.onGroupCommitBackward alloc =
      (Handler.bulkReloadGroup alloc { h with currentGroup := k + 1 } k).map fun h' =>
        { h' with offloadedGroupCount := max 1 k } := by
  unfold Handler.onGroupCommitBackward
  rw [hcurrent]
  dsimp only
  rw [reloadNext_eq alloc (k := k) (by exact hwindows) (by exact hk) (by exact hcount) rfl]
  cases hreload : Handler.bulkReloadGroup alloc { h with currentGroup := k + 1 } k with
  | error e => rfl
  | ok h' =>
    have hgroup : h'.currentGroup = k + 1 := currentGroup_of_bulkReloadGroup alloc hreload
    have hkeep : (if h'.currentGroup = 0 then 0 else max 1 k) = max 1 k := if_neg (by omega)
    show Except.ok { h' with
      offloadedGroupCount := if h'.currentGroup = 0 then 0 else max 1 k } = _
    rw [hkeep]
    rfl

/-- Which layers have buffers before the backward of the layer above `lower`. -/
def Buffered (lower : List (Layer δ α)) (layer : Layer δ α) (buffered : List (Layer δ α)) : Prop :=
  buffered = lower ++ [layer] ∨ buffered = lower

omit [DecidableEq δ] in
theorem Buffered.exists_freedItems {lower : List (Layer δ α)} {layer : Layer δ α}
    {buffered : List (Layer δ α)} (h : Buffered lower layer buffered) :
    ∃ buf : List (Option (Tensor δ α)), buf.length ≤ layer.pushed.length ∧
      freedItems buffered = freedItems lower ++ groupItems lower.length 0 buf := by
  rcases h with rfl | rfl
  · exact ⟨layer.pushed.map fun _ => none, by simp, freedItems_append _ _⟩
  · exact ⟨[], Nat.zero_le _, (append_nil _).symm⟩

section Layers

variable (lower : List (Layer δ α)) (top layer : Layer δ α) {buffered : List (Layer δ α)}

theorem backwardLayer_next (restore : Tensor δ α → Tensor δ α)
    (hbuffered : Buffered (lower ++ [top]) layer buffered)
    (hgroup : lower.length < numOffloadGroup) (hfits : top.ViewsFit) :
    backwardLayer alloc
        (ready numOffloadGroup (lower ++ [top]) buffered (layer.pushed.map restore)) layer
        (tagsOf (lower.length + 1) 0 layer.saved) =
      .ok (ready numOffloadGroup lower (lower ++ [top]) (top.pushed.map (recover alloc top)),
        fetchedOf restore layer) := by
  have hlength : (lower ++ [top]).length = lower.length + 1 := length_append
  obtain ⟨buf, hlen, hbuf⟩ := hbuffered.exists_freedItems
  rw [hlength] at hbuf
  have hcount : max 1 (lower ++ [top]).length = lower.length + 1 := by omega
  have hreload := bulkReloadGroup_eq alloc (h := {
      ready numOffloadGroup (lower ++ [top]) buffered (layer.pushed.map restore) with
      currentGroup := lower.length + 1 })
    lower top (groupItems (lower.length + 1) 0 ((layer.pushed.map restore).map .tensor))
    hgroup (by unfold ready; dsimp only; rw [hlength])
    (fun item hitem => by
      rw [fst_of_mem_groupItems hitem]
      omega)
    rfl hfits
  unfold backwardLayer
  rw [onGroupCommitBackward_next alloc (k := lower.length) rfl hgroup hcount
    (congrArg (· + 1) hlength), hreload]
  refine (popAll_layer layer restore
    (offloadedItems lower ++ groupItems lower.length 0
      ((top.pushed.map (recover alloc top)).map .tensor))
    (freedItems (lower ++ [top])) ?_ ?_ ?_ hbuf hlen).trans ?_
  · intro item hitem
    rcases mem_append.1 hitem with hitem | hitem
    · have hlt := group_lt_of_mem_offloadedItems hitem
      omega
    · rw [fst_of_mem_groupItems hitem]
      omega
  · intro item hitem
    have hlt := (group_lt_of_mem_freedItems hitem).1
    omega
  · exact (append_assoc _ _ _).symm
  · rfl

/-- A backward that returns has viewed every tensor of the layer below. -/
theorem viewsFit_of_backwardLayer (hgroup : lower.length < numOffloadGroup)
    {tensors : List (Tensor δ α)} {tags : List (TensorTag δ α)}
    {res : Handler δ α × List (Tensor δ α)}
    (hok : backwardLayer alloc (ready numOffloadGroup (lower ++ [top]) buffered tensors) layer tags =
      .ok res) : top.ViewsFit := by
  have hlength : (lower ++ [top]).length = lower.length + 1 := length_append
  have hcount : max 1 (lower ++ [top]).length = lower.length + 1 := by omega
  obtain ⟨h', hcommit, -⟩ := bind_eq_ok.1 hok
  rw [onGroupCommitBackward_next alloc (k := lower.length) rfl hgroup hcount
    (congrArg (· + 1) hlength)] at hcommit
  obtain ⟨h'', hreload, -⟩ := except_map_eq_ok.1 hcommit
  exact viewsFit_of_bulkReloadGroup alloc rfl rfl hreload

end Layers

/-- The first layer: everything is reloaded already. -/
theorem backwardLayer_first (layer : Layer δ α) (hgroups : 2 ≤ numOffloadGroup)
    {restore : Tensor δ α → Tensor δ α} :
    backwardLayer alloc (ready numOffloadGroup [] [layer] (layer.pushed.map restore)) layer
        (tagsOf 0 0 layer.saved) =
      .ok (Handler.new numOffloadGroup (numOffloadGroup + 1), fetchedOf restore layer) := by
  obtain ⟨buf, hlen, hbuf⟩ := (show Buffered [] layer [layer] from .inl rfl).exists_freedItems
  have hcommit : (ready numOffloadGroup [] [layer] (layer.pushed.map restore)).onGroupCommitBackward
      alloc = .ok { ready numOffloadGroup [] [layer] (layer.pushed.map restore) with
        currentGroup := 0
        offloadedGroupCount := 0 } := by
    have hwindow : ((0 : Nat) : Int) + 1 ≠ ((0 : Nat) : Int) := by decide
    show (do
      let h' ← (do
        let window ← Handler.layerWindow _ 0
        if window = ((0 : Nat) : Int) then _ else _)
      _) = _
    rw [layerWindow_windows (i := 0) rfl (by exact Nat.lt_of_lt_of_le Nat.zero_lt_two hgroups)]
    rfl
  unfold backwardLayer
  rw [hcommit]
  refine (popAll_layer layer restore [] [] (by simp) (by simp) ?_ hbuf hlen).trans ?_
  · rfl
  · rw [new_eq hgroups]
    rfl

/-- What the layers fetch: the tensors of all but the last are reloaded. -/
def fetchedLayers : List (Layer δ α) → List (List (Tensor δ α))
  | [] => []
  | [layer] => [fetchedOf id layer]
  | layer :: next :: layers =>
    fetchedOf (recover alloc layer) layer :: fetchedLayers (next :: layers)

section

variable (lower : List (Layer δ α)) (top next : Layer δ α) (layers : List (Layer δ α))
  (hlen : lower.length + 1 + layers.length = numOffloadGroup)
include lower top next layers hlen

/-- The forward and the backward of the layers above `top`. -/
theorem trainStep_between (hfits : ∀ layer ∈ (top :: next :: layers).dropLast, layer.ViewsFit) :
    trainStep alloc (between numOffloadGroup lower top) (next :: layers) =
      .ok (ready numOffloadGroup lower (lower ++ [top]) (top.pushed.map (recover alloc top)),
        fetchedLayers alloc (next :: layers)) := by
  have hgroup : lower.length < numOffloadGroup := by omega
  have htop : top.ViewsFit := hfits top (by simp)
  induction layers generalizing lower top next with
  | nil =>
    unfold trainStep
    rw [forwardLayer_last lower top next hlen, ok_bind]
    dsimp only
    unfold trainStep
    rw [ok_bind]
    have hback := backwardLayer_next alloc lower top next id
      (show Buffered (lower ++ [top]) next (lower ++ [top]) from .inr rfl) hgroup htop
    rw [map_id] at hback
    rw [hback]
    rfl
  | cons above layers ih =>
    have hlength : (lower ++ [top]).length = lower.length + 1 := length_append
    rw [length_cons] at hlen
    have hinner := ih (lower ++ [top]) next above (by omega)
      (fun layer hlayer => hfits layer (mem_cons_of_mem _ hlayer)) (by omega)
      (hfits next (by simp))
    unfold trainStep
    rw [forwardLayer_middle lower top next (by omega), ok_bind]
    dsimp only
    rw [hinner, ok_bind]
    rw [backwardLayer_next alloc lower top next _ (.inl rfl) hgroup htop]
    rfl

/-- A step that returns has viewed every tensor that was offloaded. -/
theorem viewsFit_of_trainStep {res : Handler δ α × List (List (Tensor δ α))}
    (hok : trainStep alloc (between numOffloadGroup lower top) (next :: layers) = .ok res) :
    ∀ layer ∈ (top :: next :: layers).dropLast, layer.ViewsFit := by
  have hgroup : lower.length < numOffloadGroup := by omega
  induction layers generalizing lower top next res with
  | nil =>
    unfold trainStep at hok
    rw [forwardLayer_last lower top next hlen, ok_bind] at hok
    dsimp only at hok
    unfold trainStep at hok
    rw [ok_bind] at hok
    obtain ⟨res', hback, -⟩ := bind_eq_ok.1 hok
    intro layer hlayer
    rw [show (top :: [next]).dropLast = [top] from rfl, mem_singleton] at hlayer
    rw [hlayer]
    exact viewsFit_of_backwardLayer alloc lower top next hgroup hback
  | cons above layers ih =>
    have hlength : (lower ++ [top]).length = lower.length + 1 := length_append
    rw [length_cons] at hlen
    unfold trainStep at hok
    rw [forwardLayer_middle lower top next (by omega), ok_bind] at hok
    obtain ⟨res', hinner, hok⟩ := bind_eq_ok.1 hok
    have hfits := ih (lower ++ [top]) next above (by omega) hinner (by omega)
    rw [trainStep_between alloc (lower ++ [top]) next above layers (by omega) hfits] at hinner
    cases hinner
    obtain ⟨res', hback, -⟩ := bind_eq_ok.1 hok
    intro layer hlayer
    rcases mem_cons.1 (show layer ∈ top :: (next :: above :: layers).dropLast from hlayer) with
      rfl | hlayer
    · exact viewsFit_of_backwardLayer alloc lower _ next hgroup hback
    · exact hfits layer hlayer

end

theorem exists_cons_cons {β : Type} {xs : List β} {n : Nat} (hn : 2 ≤ n) (h : xs.length = n + 1) :
    ∃ x y ys, xs = x :: y :: ys ∧ ys.length + 1 = n := by
  match xs, h with
  | [], h => cases h
  | [x], h =>
    rw [length_singleton] at h
    omega
  | x :: y :: ys, h =>
    rw [length_cons, length_cons] at h
    exact ⟨x, y, ys, rfl, by omega⟩

section

variable (layers : List (Layer δ α)) (hgroups : 2 ≤ numOffloadGroup)
  (hlen : layers.length = numOffloadGroup + 1)
include layers hgroups hlen

theorem trainStep_new (hfits : ∀ layer ∈ layers.dropLast, layer.ViewsFit) :
    trainStep alloc (Handler.new numOffloadGroup (numOffloadGroup + 1)) layers =
      .ok (Handler.new numOffloadGroup (numOffloadGroup + 1), fetchedLayers alloc layers) := by
  obtain ⟨first, next, layers, rfl, hlen⟩ := exists_cons_cons hgroups hlen
  have hlength : ([] : List (Layer δ α)).length + 1 + layers.length = numOffloadGroup := by
    rw [length_nil]
    omega
  unfold trainStep
  rw [forwardLayer_first hgroups, ok_bind]
  dsimp only
  rw [trainStep_between alloc [] first next layers hlength hfits, ok_bind, nil_append]
  rw [backwardLayer_first alloc first hgroups]
  rfl

theorem viewsFit_of_trainStep_new {res : Handler δ α × List (List (Tensor δ α))}
    (hok : trainStep alloc (Handler.new numOffloadGroup (numOffloadGroup + 1)) layers = .ok res) :
    ∀ layer ∈ layers.dropLast, layer.ViewsFit := by
  obtain ⟨first, next, layers, rfl, hlen⟩ := exists_cons_cons hgroups hlen
  have hlength : ([] : List (Layer δ α)).length + 1 + layers.length = numOffloadGroup := by
    rw [length_nil]
    omega
  unfold trainStep at hok
  rw [forwardLayer_first hgroups, ok_bind] at hok
  obtain ⟨res', hinner, -⟩ := bind_eq_ok.1 hok
  exact viewsFit_of_trainStep alloc [] first next layers hlength hinner

end

/-! ## The fetched tensors -/

omit [DecidableEq δ] in
theorem fetchedRight_iff {layer : Layer δ α} {restore : Tensor δ α → Tensor δ α} :
    layer.FetchedRight (fetchedOf restore layer) ↔
      ∀ t ∈ layer.pushed, (restore t).shape = t.shape ∧ (restore t).elems = t.elems := by
  have hidxs : ∀ idxs : List Nat, (∀ i ∈ idxs, i < layer.saved.length) →
      (Forall₂ (fun i t => ∃ s, layer.saved[i]? = some s ∧ t.shape = s.tensor.shape ∧
          t.elems = s.tensor.elems) idxs
        (idxs.filterMap fun i => (layer.saved.map (valueOf restore))[i]?) ↔
      ∀ i ∈ idxs, ∀ s, layer.saved[i]? = some s → (valueOf restore s).shape = s.tensor.shape ∧
        (valueOf restore s).elems = s.tensor.elems) := by
    intro idxs hidxs
    induction idxs with
    | nil => simp
    | cons i idxs ih =>
      obtain ⟨s, hs⟩ : ∃ s, layer.saved[i]? = some s :=
        ⟨_, getElem?_eq_getElem (hidxs i mem_cons_self)⟩
      have hvalue : (layer.saved.map (valueOf restore))[i]? = some (valueOf restore s) := by grind
      rw [filterMap_cons_some hvalue, forall₂_cons,
        ih fun i hi => hidxs i (mem_cons_of_mem _ hi), forall_mem_cons]
      refine and_congr_left fun _ => ?_
      rw [hs]
      constructor
      · simp
      · simp
  have hmem : ∀ i, i ∈ layer.fetched ↔ i < layer.saved.length := by
    intro i
    rw [layer.once.mem_iff, mem_range]
  unfold Layer.FetchedRight fetchedOf
  rw [hidxs _ fun i hi => (hmem i).1 hi]
  constructor
  · intro h t ht
    obtain ⟨s, hs, rfl⟩ := mem_map.1 ht
    obtain ⟨hs, hoffload⟩ := mem_filter.1 hs
    obtain ⟨i, hi⟩ := mem_iff_getElem?.1 hs
    have hright := h i ((hmem i).2 (List.getElem?_eq_some_iff.1 hi).1) s hi
    unfold valueOf at hright
    rwa [if_pos hoffload] at hright
  · intro h i _ s hs
    unfold valueOf
    by_cases hoffload : s.needOffload = true
    · rw [if_pos hoffload]
      exact h _ (mem_map_of_mem
        (mem_filter.2 ⟨mem_of_getElem? hs, hoffload⟩))
    · grind

theorem fetchedRight_recover_iff {layer : Layer δ α} (hfits : layer.ViewsFit) :
    layer.FetchedRight (fetchedOf (recover alloc layer) layer) ↔ layer.AliasesAgree := by
  rw [fetchedRight_iff]
  constructor
  · intro h t ht first hfirst
    rw [← (reloadItem_eq alloc (0, 0) hfirst (hfits t ht first hfirst)).2.2]
    exact (h t ht).2
  · intro h t ht
    obtain ⟨first, hfirst⟩ := exists_firstAlias ht
    obtain ⟨-, hshape, helems⟩ := reloadItem_eq alloc (0, 0) hfirst
      (hfits t ht first hfirst)
    exact ⟨hshape, helems.trans (h t ht first hfirst)⟩

theorem Layer.AliasesAgree.viewsFit {layer : Layer δ α} (h : layer.AliasesAgree) :
    layer.ViewsFit := by
  intro t ht first hfirst
  rw [h t ht first hfirst]
  exact t.length_elems

theorem fetchedLayers_right_iff (layers : List (Layer δ α))
    (hfits : ∀ layer ∈ layers.dropLast, layer.ViewsFit) :
    Forall₂ Layer.FetchedRight layers (fetchedLayers alloc layers) ↔
      ∀ layer ∈ layers.dropLast, layer.AliasesAgree := by
  match layers with
  | [] => simp [fetchedLayers]
  | [layer] =>
    have hlast : layer.FetchedRight (fetchedOf id layer) :=
      fetchedRight_iff.2 fun t _ => ⟨rfl, rfl⟩
    simp [fetchedLayers, hlast]
  | layer :: next :: layers =>
    unfold fetchedLayers
    rw [forall₂_cons, fetchedLayers_right_iff (next :: layers)
      fun layer hlayer => hfits layer (mem_cons_of_mem _ hlayer),
      fetchedRight_recover_iff alloc (hfits layer (by simp))]
    rw [show (layer :: next :: layers).dropLast = layer :: (next :: layers).dropLast from rfl,
      forall_mem_cons]

theorem trainStep_right_iff (layers : List (Layer δ α)) (hgroups : 2 ≤ numOffloadGroup)
    (hlen : layers.length = numOffloadGroup + 1) :
    (∃ fetched, trainStep alloc (Handler.new numOffloadGroup (numOffloadGroup + 1)) layers =
        .ok (Handler.new numOffloadGroup (numOffloadGroup + 1), fetched) ∧
      Forall₂ Layer.FetchedRight layers fetched) ↔
      ∀ layer ∈ layers.dropLast, layer.AliasesAgree := by
  constructor
  · rintro ⟨fetched, hok, hright⟩
    have hfits := viewsFit_of_trainStep_new alloc layers hgroups hlen hok
    rw [trainStep_new alloc layers hgroups hlen hfits] at hok
    cases hok
    exact (fetchedLayers_right_iff alloc layers hfits).1 hright
  · intro h
    have hfits : ∀ layer ∈ layers.dropLast, layer.ViewsFit := fun layer hlayer =>
      (h layer hlayer).viewsFit
    exact ⟨_, trainStep_new alloc layers hgroups hlen hfits,
      (fetchedLayers_right_iff alloc layers hfits).2 h⟩

/-- Training fetches what was saved and leaves the handler as it was, exactly when the tensors that
share a copy have the same elements. -/
theorem train_right_iff (numLayers : Nat) (hlayers : 3 ≤ numLayers)
    (iterations : List (List (Layer δ α))) (hlen : ∀ layers ∈ iterations, layers.length = numLayers) :
    (∃ results, train alloc (Handler.new (numLayers - 1) numLayers) iterations = .ok results ∧
      List.Forall₂ (fun layers res => res.1 = Handler.new (numLayers - 1) numLayers ∧
        List.Forall₂ Layer.FetchedRight layers res.2) iterations results) ↔
      ∀ layers ∈ iterations, ∀ layer ∈ layers.dropLast, layer.AliasesAgree := by
  obtain ⟨numOffloadGroup, rfl⟩ : ∃ g, numLayers = g + 1 := ⟨numLayers - 1, by omega⟩
  have hgroups : 2 ≤ numOffloadGroup := by omega
  rw [Nat.add_sub_cancel]
  induction iterations with
  | nil =>
    constructor
    · simp
    · intro _
      exact ⟨[], rfl, .nil⟩
  | cons layers iterations ih =>
    have hstep := trainStep_right_iff alloc layers hgroups (hlen layers mem_cons_self)
    have hrest := ih fun layers hmem => hlen layers (mem_cons_of_mem _ hmem)
    rw [forall_mem_cons]
    refine Iff.trans ?_ (and_congr hstep hrest)
    constructor
    · rintro ⟨results, hok, hright⟩
      obtain ⟨⟨h', tensors⟩, hfirst, hok⟩ := bind_eq_ok.1 hok
      obtain ⟨rest, hrest, hok⟩ := bind_eq_ok.1 hok
      cases hok
      obtain ⟨⟨hnew, hfetched⟩, hright'⟩ := forall₂_cons.1 hright
      subst hnew
      exact ⟨⟨tensors, hfirst, hfetched⟩, rest, hrest, hright'⟩
    · rintro ⟨⟨tensors, hfirst, hfetched⟩, rest, hrest, hright⟩
      refine ⟨(_, tensors) :: rest, ?_, .cons ⟨rfl, hfetched⟩ hright⟩
      unfold train
      rw [hfirst, ok_bind]
      dsimp only
      rw [hrest]
      rfl

end Step

/-- A 2 × 2 matrix of a 4-element storage, in the given strides. -/
def matrix (stride stride' : Nat) (h : (readAt [1, 2, 3, 4] [(2, stride), (2, stride')] 0).length = 4) :
    Tensor Unit Nat where
  data := [1, 2, 3, 4]
  offset := 0
  dims := [(2, stride), (2, stride')]
  inStorage := h
  dataPtr := 0
  dtype := ()

/-- A matrix and its transpose. -/
def transposed : Layer Unit Nat where
  saved := [{ tensor := matrix 2 1 rfl, needOffload := true },
    { tensor := matrix 1 2 rfl, needOffload := true }]
  fetched := [1, 0]
  once := by decide

def nothing : Layer Unit Nat where
  saved := []
  fetched := []
  once := by decide

/-- The transpose comes back as the matrix. -/
theorem not_right_transposed :
    ¬∃ results, train (fun _ => 8) (Handler.new 2 3) [[transposed, nothing, nothing]] = .ok results ∧
      List.Forall₂ (fun layers res => res.1 = Handler.new 2 3 ∧
        List.Forall₂ Layer.FetchedRight layers res.2) [[transposed, nothing, nothing]] results := by
  rintro ⟨results, hok, hright⟩
  unfold train at hok
  obtain ⟨⟨h', tensors⟩, hfirst, hok⟩ := bind_eq_ok.1 hok
  obtain ⟨rest, -, hok⟩ := bind_eq_ok.1 hok
  cases hok
  obtain ⟨⟨hnew, hfetched⟩, -⟩ := forall₂_cons.1 hright
  dsimp only at hnew
  subst hnew
  have hagree := (trainStep_right_iff (fun _ => 8) [transposed, nothing, nothing] le_rfl rfl).1
    ⟨tensors, hfirst, hfetched⟩ transposed (by simp)
  have heq : ([1, 2, 3, 4] : List Nat) = [1, 3, 2, 4] :=
    hagree (matrix 1 2 rfl) (by simp [Layer.pushed, pushedOf, transposed]) (matrix 2 1 rfl) rfl
  exact absurd heq (by decide)

theorem train_right_iff_transposed :
    (∃ results, train (fun _ => 8) (Handler.new 2 3) [[nothing, nothing, transposed]] = .ok results ∧
      List.Forall₂ (fun layers res => res.1 = Handler.new 2 3 ∧
        List.Forall₂ Layer.FetchedRight layers res.2) [[nothing, nothing, transposed]] results) ↔
      ∀ layers ∈ [[nothing, nothing, transposed]], ∀ layer ∈ layers.dropLast, layer.AliasesAgree :=
  train_right_iff (fun _ => 8) 3 le_rfl [[nothing, nothing, transposed]] (by simp)

end Verl.Offload
