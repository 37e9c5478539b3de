import Verl.Lib.PySlice
import Verl.Models.BshdEngine

/-! # Packing for the model engine (`preprocess_thd_engine` of `verl/models/mcore/util.py`)

The engine packs nested tensors as `preprocess_packed_seqs` packs padded ones, with the same layout.
It does not clip the first chunk to the sequence: a sequence shorter than the alignment is padded to
it, and what is still too short does not fit its slot.  With `need_roll` all tokens are shifted by
one; what the shift brings in at the end of a chunk is wrong and is written over from a `dict` of
saved tokens, whose keys are local slots.

* `thdSeq`: one turn of the loop; `savedAfter`: what it saves.
* `foldlM_thdSeq`: where all sequences fit, the loop packs as that of `preprocess_packed_seqs`.
* `lookup_saved`: what is saved for a slot in the end.  The keys of an empty sequence fall on the
  last slot of the sequence before it. -/

namespace Verl.MCore

open List

variable {α : Type}

/-- What the loop over the sequences keeps. -/
structure ThdState (α : Type) (m : Nat) where
  inputIds : Buffer α m
  positionIds : Buffer Nat m
  savedRoll : List (Int × α)
  savedPositionRoll : List (Int × Nat)

structure ThdBatch (α : Type) where
  inputIds : List α
  params : PackedSeqParams
  positionIds : List Nat

/-! ## Algorithm -/

/-- `d[key] = val` for a `dict` with integer keys. -/
def dictSet {β : Type} (items : List (Int × β)) (key : Int) (val : β) : List (Int × β) :=
  if key ∈ items.map Prod.fst then items.map fun p => if p.1 = key then (key, val) else p
  else items ++ [(key, val)]

/-- The writes to the two dictionaries at the ends of the chunks. -/
def saveRoll (cpRank halfSeqlen startIdx remainEnd remainLen : Nat) (d : List α) {m : Nat}
    (s : ThdState α m) : Except PyErr (ThdState α m) := do
  let front : Int := (startIdx : Int) + halfSeqlen - 1
  let token ← pyGet d ((cpRank + 1) * halfSeqlen : Nat)
  let position ← pyGet s.positionIds.toList front
  let s := { s with
    savedRoll := dictSet s.savedRoll front token
    savedPositionRoll := dictSet s.savedPositionRoll front position }
  if 0 < remainLen then do
    let back : Int := (startIdx : Int) + halfSeqlen + remainLen - 1
    if remainEnd = d.length then do
      let token ← pyGet d 0
      return { s with
        savedRoll := dictSet s.savedRoll back token
        savedPositionRoll := dictSet s.savedPositionRoll back 0 }
    else do
      let token ← pyGet d (remainEnd : Nat)
      let position ← pyGet s.positionIds.toList back
      return { s with
        savedRoll := dictSet s.savedRoll back token
        savedPositionRoll := dictSet s.savedPositionRoll back position }
  else return s

/-- One turn of the loop over the sequences. -/
def thdSeq (zero : α) (ps : ParallelState) (align : Nat) (needRoll : Bool) {m : Nat}
    (s : ThdState α m) (seq : SeqSlot α) : Except PyErr (ThdState α m) :=
  if ps.cpSize ≤ 1 then do
    let seqlen := seq.tokens.length
    let inputIds ← store s.inputIds seq.cuSeqlen seqlen seq.tokens
    let positionIds ← store s.positionIds seq.cuSeqlen seqlen (List.range seqlen)
    return { s with inputIds := inputIds, positionIds := positionIds }
  else do
    let seqlen := seq.seqlenPadded / ps.cpSize
    let halfSeqlen := seqlen / 2
    let startIdx := seq.cuSeqlen / ps.cpSize
    let d :=
      if seq.tokens.length < align then
        seq.tokens ++ List.replicate (align - seq.tokens.length) zero
      else seq.tokens
    let inputIds ← store s.inputIds startIdx halfSeqlen
      (getSlice d (halfSeqlen * ps.cpRank) halfSeqlen)
    let positionIds ← store s.positionIds startIdx halfSeqlen
      (List.range' (halfSeqlen * ps.cpRank) halfSeqlen)
    let remainStart := seq.seqlenPadded - halfSeqlen * (ps.cpRank + 1)
    let remainEnd := min (seq.seqlenPadded - halfSeqlen * ps.cpRank) d.length
    let remainLen := remainEnd - remainStart
    let inputIds ← storePositive inputIds (startIdx + halfSeqlen) remainLen
      (getSlice d remainStart remainLen)
    -- there are valid positions only where something remains
    let validPosLen := min remainEnd seq.tokens.length - remainStart
    let positionIds ← storePositive positionIds (startIdx + halfSeqlen) validPosLen
      (List.range' remainStart validPosLen)
    let s := { s with inputIds := inputIds, positionIds := positionIds }
    if needRoll then saveRoll ps.cpRank halfSeqlen startIdx remainEnd remainLen d s else .ok s

/-- The saved values, written over a shifted tensor. -/
def applySaved {β : Type} (xs : List β) (saved : List (Int × β)) : Except PyErr (List β) :=
  saved.foldlM (fun xs p => (pyIndex xs.length p.1).map fun k => xs.set k p.2) xs

/-- `preprocess_thd_engine` with `pre_process`; with `local_cp_size` the sizes are those of the
dynamic group. -/
def preprocessThdEngine (zero : α) (ps : ParallelState) (needRoll useFp8Padding : Bool)
    (inputIds : List (List α)) : Except PyErr (ThdBatch α) := do
  let layout ← thdLayout ps.tpSize ps.cpSize useFp8Padding (inputIds.map List.length)
  let align := alignSize ps.tpSize ps.cpSize useFp8Padding
  let s ← (seqSlots inputIds layout).foldlM (thdSeq zero ps align needRoll)
    { inputIds := Buffer.replicate (localLen ps.cpSize layout) zero
      positionIds := Buffer.replicate (localLen ps.cpSize layout) 0
      savedRoll := []
      savedPositionRoll := [] }
  if needRoll then do
    let inputIds ← applySaved (rollRow s.inputIds.toList) s.savedRoll
    let positionIds ← applySaved (rollRow s.positionIds.toList) s.savedPositionRoll
    return { inputIds := inputIds, params := layout.params, positionIds := positionIds }
  else
    return { inputIds := s.inputIds.toList, params := layout.params
             positionIds := s.positionIds.toList }

/-! ## Lemmas: saved values -/

section Saved

variable {β : Type}

variable (items : List (Int × β)) {stop : Nat} {saved : List (Int × β)} {xs : List β}

theorem lookup_dictSet (key k : Int) (val : β) :
    (dictSet items key val).lookup k = if k = key then some val else items.lookup k := by
  unfold dictSet
  by_cases hmem : key ∈ items.map Prod.fst
  · rw [if_pos hmem]
    induction items with
    | nil => cases hmem
    | cons p items ih =>
      rw [map_cons]
      by_cases hp : p.1 = key
      · rw [if_pos hp]
        by_cases hk : k = key
        · grind
        · have hkp : (k == p.1) = false := beq_false_of_ne (by rw [hp]; exact hk)
          have hkk : (k == key) = false := beq_false_of_ne hk
          rw [if_neg hk, lookup_cons, lookup_cons, hkp, hkk]
          by_cases hrest : key ∈ items.map Prod.fst
          · rw [ih hrest, if_neg hk]
          · have hmap : (items.map fun p => if p.1 = key then (key, val) else p) = items := by
              conv_rhs => rw [← map_id items]
              apply map_congr_left
              intro q hq
              rw [if_neg fun h : q.1 = key => hrest (h ▸ mem_map_of_mem hq), id_eq]
            rw [hmap]
      · grind
  · grind

theorem map_fst_dictSet (key : Int) (val : β) :
    (dictSet items key val).map Prod.fst =
      if key ∈ items.map Prod.fst then items.map Prod.fst else items.map Prod.fst ++ [key] := by
  unfold dictSet
  by_cases hmem : key ∈ items.map Prod.fst
  · rw [if_pos hmem, if_pos hmem, map_map]
    apply map_congr_left
    intro p _
    rw [Function.comp_apply]
    split
    · next h => exact h.symm
    · rfl
  · grind

/-- The keys are slots before `stop`, or -1, which stands for the last slot of all; only the first
key can be -1. -/
structure SavedKeys (stop : Nat) (keys : List Int) : Prop where
  nodup : keys.Nodup
  lt : ∀ k ∈ keys, k < stop
  ge : ∀ k ∈ keys, -1 ≤ k
  tail : ∀ k ∈ keys.tail, 0 ≤ k

theorem SavedKeys.mono {stop stop' : Nat} {keys : List Int} (h : SavedKeys stop keys)
    (hle : stop ≤ stop') : SavedKeys stop' keys :=
  ⟨h.nodup, fun k hk => by have hlt := h.lt k hk; omega, h.ge, h.tail⟩

/-- Another key: a slot, or -1 while all keys are. -/
theorem SavedKeys.append {keys : List Int} (h : SavedKeys stop keys) {key : Int}
    (hmem : key ∉ keys) (hlt : key < stop) (hge : 0 ≤ key ∨ keys = []) (hlow : -1 ≤ key) :
    SavedKeys stop (keys ++ [key]) := by
  refine ⟨?_, ?_, ?_, ?_⟩
  · rw [nodup_append]
    refine ⟨h.nodup, nodup_singleton _, fun a ha b hb hab => ?_⟩
    rw [mem_singleton.1 hb] at hab
    exact hmem (hab ▸ ha)
  · intro k hk
    rcases mem_append.1 hk with hk | hk
    · exact h.lt k hk
    · grind
  · intro k hk
    rcases mem_append.1 hk with hk | hk
    · exact h.ge k hk
    · grind
  · intro k hk
    cases keys with
    | nil => cases hk
    | cons k₀ keys =>
      rcases mem_append.1 hk with hk | hk
      · exact h.tail k hk
      · grind

theorem SavedKeys.dictSet {items : List (Int × β)}
    (h : SavedKeys stop (items.map Prod.fst)) (key : Int) (val : β) (hlt : key < stop)
    (hlow : -1 ≤ key) (hge : 0 ≤ key ∨ ∀ k ∈ items.map Prod.fst, k = -1) :
    SavedKeys stop ((dictSet items key val).map Prod.fst) := by
  rw [map_fst_dictSet]
  by_cases hmem : key ∈ items.map Prod.fst
  · grind
  · rw [if_neg hmem]
    refine h.append hmem hlt ?_ hlow
    rcases hge with hge | hall
    · exact .inl hge
    · by_cases hkey : 0 ≤ key
      · exact .inl hkey
      · right
        rw [eq_nil_iff_forall_not_mem]
        intro k hk
        have hk' := hall k hk
        have hkey' : key = k := by omega
        exact hmem (hkey' ▸ hk)

/-- Writing over slots that are not counted from the end. -/
theorem applySaved_nonneg (hnodup : (saved.map Prod.fst).Nodup)
    (hkeys : ∀ k ∈ saved.map Prod.fst, 0 ≤ k ∧ k < xs.length) :
    ∃ ys, applySaved xs saved = .ok ys ∧ ys.length = xs.length ∧
      ∀ j : Nat, ys[j]? = match saved.lookup (j : Int) with
        | some v => if j < xs.length then some v else none
        | none => xs[j]? := by
  induction saved generalizing xs with
  | nil => exact ⟨xs, rfl, rfl, fun j => rfl⟩
  | cons p saved ih =>
    rw [map_cons, nodup_cons] at hnodup
    rw [map_cons, forall_mem_cons] at hkeys
    obtain ⟨⟨hlow, hhigh⟩, hkeys⟩ := hkeys
    obtain ⟨k, hk⟩ := Int.eq_ofNat_of_zero_le hlow
    have hindex : pyIndex xs.length p.1 = .ok k := by
      rw [hk]
      exact pyIndex_nat (by omega)
    have hset : ∀ key ∈ saved.map Prod.fst, 0 ≤ key ∧ key < (xs.set k p.2).length := by grind
    obtain ⟨ys, happly, hlen, hget⟩ := ih hnodup.2 hset
    rw [length_set] at hlen hget
    refine ⟨ys, ?_, hlen, fun j => ?_⟩
    · unfold applySaved at happly ⊢
      rw [foldlM_cons, hindex]
      exact happly
    · rw [hget j]
      by_cases hj : (j : Int) = p.1
      · have hnone : saved.lookup (j : Int) = none := by grind
        have hjk : j = k := by omega
        rw [hnone, hj, lookup_cons_self, hjk]
        dsimp only
        rw [getElem?_set_self' , if_pos (by omega)]
        rw [getElem?_eq_getElem (by omega)]
        rfl
      · have hbeq : ((j : Int) == p.1) = false := beq_false_of_ne hj
        rw [lookup_cons, hbeq]
        cases hlookup : saved.lookup (j : Int) with
        | some v => rfl
        | none =>
          dsimp only
          rw [getElem?_set_ne (by omega)]

/-- Writing over the slots of all keys: -1 comes first, so the last slot keeps its own value. -/
theorem applySaved_eq (h : SavedKeys xs.length (saved.map Prod.fst)) (hpos : 0 < xs.length) :
    ∃ ys, applySaved xs saved = .ok ys ∧
      (∀ (j : Nat) v, saved.lookup (j : Int) = some v → ys[j]? = some v) ∧
      ∀ j : Nat, saved.lookup (j : Int) = none → j + 1 < xs.length → ys[j]? = xs[j]? := by
  have hbound : ∀ (j : Nat) v, saved.lookup (j : Int) = some v → j < xs.length := by
    intro j v hv
    by_contra hj
    have hnone : saved.lookup (j : Int) = none := by
      rw [lookup_eq_none_iff]
      intro q hq
      have hlt := h.lt q.1 (mem_map_of_mem hq)
      exact bne_iff_ne.2 (by omega)
    rw [hnone] at hv
    cases hv
  by_cases hall : ∀ k ∈ saved.map Prod.fst, 0 ≤ k
  · obtain ⟨ys, happly, -, hget⟩ := applySaved_nonneg h.nodup fun k hk => ⟨hall k hk, h.lt k hk⟩
    refine ⟨ys, happly, fun j v hv => ?_, fun j hj _ => ?_⟩
    · grind
    · rw [hget j, hj]
  · cases saved with
    | nil => exact absurd (by simp) hall
    | cons p saved =>
      have hnodup := h.nodup
      have htail := h.tail
      rw [map_cons, nodup_cons] at hnodup
      have hp : p.1 = -1 := by
        have hge := h.ge p.1 (mem_cons_self ..)
        by_contra hne
        exact hall (forall_mem_cons.2 ⟨by omega, htail⟩)
      have hindex : pyIndex xs.length p.1 = .ok (xs.length - 1) := by
        unfold pyIndex
        rw [if_neg (by omega), if_pos (by omega)]
        congr 1
        omega
      have hset : ∀ k ∈ saved.map Prod.fst, 0 ≤ k ∧ k < (xs.set (xs.length - 1) p.2).length := by
        intro k hk
        rw [length_set]
        exact ⟨htail k hk, h.lt k (mem_cons_of_mem _ hk)⟩
      obtain ⟨ys, happly, hlen, hget⟩ := applySaved_nonneg hnodup.2 hset
      have hlookup : ∀ j : Nat, (p :: saved).lookup (j : Int) = saved.lookup (j : Int) := by
        intro j
        rw [lookup_cons, beq_false_of_ne (by omega)]
      refine ⟨ys, ?_, fun j v hv => ?_, fun j hj hlt => ?_⟩
      · unfold applySaved at ⊢
        rw [foldlM_cons, hindex]
        exact happly
      · grind
      · rw [hlookup] at hj
        rw [hget j, hj]
        exact getElem?_set_ne (by omega)

end Saved

/-! ## Lemmas: one turn of the loop -/

/-- What a turn of the loop saves of the tokens. -/
def savedAfter (zero : α) (ps : ParallelState) (align : Nat) (saved : List (Int × α))
    (seq : SeqSlot α) : List (Int × α) :=
  let halfSeqlen := seq.seqlenPadded / ps.cpSize / 2
  let startIdx := seq.cuSeqlen / ps.cpSize
  let d := padTo zero align seq.tokens
  let remainEnd := min (seq.seqlenPadded - halfSeqlen * ps.cpRank) d.length
  let remainLen := remainEnd - (seq.seqlenPadded - halfSeqlen * (ps.cpRank + 1))
  let saved := dictSet saved ((startIdx : Int) + halfSeqlen - 1)
    (d.getD ((ps.cpRank + 1) * halfSeqlen) zero)
  if 0 < remainLen then
    dictSet saved ((startIdx : Int) + halfSeqlen + remainLen - 1)
      (d.getD (if remainEnd = d.length then 0 else remainEnd) zero)
  else saved

/-- The front chunk of every rank lies inside the sequence. -/
def Holds (cpSize align : Nat) (seq : SeqSlot α) : Prop :=
  cpSize * (seq.seqlenPadded / cpSize / 2) ≤ max seq.tokens.length align

/-- The front chunk of every rank lies inside the sequence, with a token behind it. -/
def Fits (cpSize align : Nat) (seq : SeqSlot α) : Prop :=
  cpSize * (seq.seqlenPadded / cpSize / 2) < max seq.tokens.length align

theorem Fits.holds {cpSize align : Nat} {seq : SeqSlot α} (h : Fits cpSize align seq) :
    Holds cpSize align seq := Nat.le_of_lt h

variable (zero : α) (n : Nat)

theorem length_padTo_max (d : List α) :
    (padTo zero n d).length = max d.length n := by
  unfold padTo
  rw [length_append, length_replicate]
  omega

theorem padTo_eq_ite (d : List α) :
    (if d.length < n then d ++ replicate (n - d.length) zero else d) = padTo zero n d := by
  unfold padTo
  by_cases h : d.length < n
  · rw [if_pos h]
  · rw [if_neg h, show n - d.length = 0 by omega, replicate_zero, append_nil]

theorem getElem?_padTo {n i : Nat} (d : List α) (hi : i < n) :
    (padTo zero n d)[i]? = if i < d.length then d[i]? else some zero := by
  by_cases h : i < d.length
  · rw [if_pos h, getElem?_padTo_of_lt h]
  · rw [if_neg h, getElem?_padTo_of_le (by omega) hi]

/-- A slice of a padded sequence is the slice of the sequence padded less, padded. -/
theorem getSlice_padTo_padTo {zero : α} {n a o w : Nat} {d : List α} (hn : o + w ≤ n)
    (hd : d.length ≤ n) :
    getSlice (padTo zero n d) o w = padTo zero w
      (getSlice (padTo zero a d) o (min (o + w) (padTo zero a d).length - o)) := by
  have hmax := length_padTo_max zero a d
  have hlen : (getSlice (padTo zero a d) o (min (o + w) (padTo zero a d).length - o)).length =
      min (o + w) (padTo zero a d).length - o := by
    unfold getSlice
    rw [length_take, length_drop]
    omega
  apply ext_getElem?
  intro i
  by_cases hi : i < w
  · rw [getElem?_getSlice _ _ hi, getElem?_padTo zero d (by omega), getElem?_padTo zero _ hi]
    by_cases hlt : o + i < (padTo zero a d).length
    · rw [if_pos (show i < _ by omega), getElem?_getSlice _ _ (by omega)]
      by_cases hd' : o + i < d.length
      · rw [if_pos hd', getElem?_padTo_of_lt hd']
      · rw [if_neg hd', getElem?_padTo_of_le (by omega) (by omega)]
    · grind
  · rw [getElem?_eq_none, getElem?_eq_none]
    · rw [length_padTo _ (by omega)]
      omega
    · rw [length_getSlice (by rw [length_padTo _ hd]; exact hn)]
      omega

theorem pyGet_getD {xs : List α} {k : Nat} (h : k < xs.length) :
    pyGet xs k = .ok (xs.getD k zero) := by
  rw [getD_eq_getElem?_getD, getElem?_eq_getElem h]
  exact pyGet_nat (getElem?_eq_getElem h)

section

variable {m : Nat} (buf : Buffer α m) (offset : Nat) (v : List α) (h : offset + v.length ≤ m)
include buf offset v h

/-- A write of `v`, with the buffer behind it unknown. -/
theorem exists_store : ∃ buf', store buf offset v.length v = .ok buf' := by
  obtain ⟨buf', hassign, -⟩ := buf.assign_eq h rfl
  refine ⟨buf', ?_⟩
  unfold store
  rw [hassign]

theorem exists_storePositive : ∃ buf', storePositive buf offset v.length v = .ok buf' := by
  unfold storePositive
  by_cases hpos : 0 < v.length
  · rw [if_pos hpos]
    exact exists_store buf offset v h
  · exact ⟨buf, if_neg hpos⟩

end

/-- The writes to the dictionaries, on a buffer that is not empty. -/
theorem saveRoll_eq {zero : α} {ps : ParallelState} {align m : Nat} {s : ThdState α m}
    {seq : SeqSlot α} (hpos : 0 < m)
    (hend : seq.cuSeqlen / ps.cpSize + 2 * (seq.seqlenPadded / ps.cpSize / 2) ≤ m)
    (hback : seq.seqlenPadded - (seq.seqlenPadded / ps.cpSize / 2) * ps.cpRank - (seq.seqlenPadded - (seq.seqlenPadded / ps.cpSize / 2) * (ps.cpRank + 1)) ≤ seq.seqlenPadded / ps.cpSize / 2)
    (hfits : (ps.cpRank + 1) * (seq.seqlenPadded / ps.cpSize / 2) < (padTo zero align seq.tokens).length)
    (hkeys : s.savedPositionRoll.map Prod.fst = s.savedRoll.map Prod.fst) :
    ∃ s', saveRoll ps.cpRank (seq.seqlenPadded / ps.cpSize / 2) (seq.cuSeqlen / ps.cpSize)
        (min (seq.seqlenPadded - (seq.seqlenPadded / ps.cpSize / 2) * ps.cpRank)
          (padTo zero align seq.tokens).length)
        (min (seq.seqlenPadded - (seq.seqlenPadded / ps.cpSize / 2) * ps.cpRank)
            (padTo zero align seq.tokens).length -
          (seq.seqlenPadded - (seq.seqlenPadded / ps.cpSize / 2) * (ps.cpRank + 1)))
        (padTo zero align seq.tokens) s = .ok s' ∧
      s'.inputIds = s.inputIds ∧ s'.savedRoll = savedAfter zero ps align s.savedRoll seq ∧
      s'.savedPositionRoll.map Prod.fst = s'.savedRoll.map Prod.fst := by
  unfold savedAfter
  dsimp only
  generalize seq.seqlenPadded / ps.cpSize / 2 = h at *
  generalize seq.cuSeqlen / ps.cpSize = start at *
  generalize padTo zero align seq.tokens = d at *
  generalize hendEq : min (seq.seqlenPadded - h * ps.cpRank) d.length = remainEnd
  generalize hlenEq : remainEnd - (seq.seqlenPadded - h * (ps.cpRank + 1)) = remainLen
  have hsame : ∀ {key : Int} {v : α} {w : Nat} {xs : List (Int × α)} {ys : List (Int × Nat)},
      ys.map Prod.fst = xs.map Prod.fst →
      (dictSet ys key w).map Prod.fst = (dictSet xs key v).map Prod.fst := by
    intro key v w xs ys h
    rw [map_fst_dictSet, map_fst_dictSet, h]
  have hlist := s.positionIds.length_eq
  obtain ⟨position, hposition⟩ := exists_pyGet
    (show -(s.positionIds.toList.length : Int) ≤ (start : Int) + h - 1 by omega) (by omega)
  unfold saveRoll
  rw [pyGet_getD zero hfits, ok_bind, hposition, ok_bind]
  by_cases hlen : 0 < remainLen
  · rw [if_pos hlen, if_pos hlen]
    by_cases heq : remainEnd = d.length
    · rw [if_pos heq, if_pos heq]
      have hzero : pyGet d 0 = .ok (d.getD 0 zero) := pyGet_getD zero (Nat.zero_lt_of_lt hfits)
      rw [hzero]
      exact ⟨_, rfl, rfl, rfl, hsame (hsame hkeys)⟩
    · obtain ⟨position', hposition'⟩ := exists_pyGet
        (show -(s.positionIds.toList.length : Int) ≤ (start : Int) + h + remainLen - 1 by omega)
        (by omega)
      rw [if_neg heq, if_neg heq, pyGet_getD zero (by omega), hposition']
      exact ⟨_, rfl, rfl, rfl, hsame (hsame hkeys)⟩
  · rw [if_neg hlen, if_neg hlen]
    exact ⟨_, rfl, rfl, rfl, hsame hkeys⟩

/-- What the loop saves of the tokens. -/
def savedRolls (zero : α) (ps : ParallelState) (align : Nat) (needRoll : Bool)
    (saved : List (Int × α)) (seqs : List (SeqSlot α)) : List (Int × α) :=
  if needRoll = true ∧ 1 < ps.cpSize then seqs.foldl (savedAfter zero ps align) saved else saved

theorem savedRolls_cons (zero : α) (ps : ParallelState) (align : Nat) (needRoll : Bool)
    (saved : List (Int × α)) (seq : SeqSlot α) (seqs : List (SeqSlot α)) :
    savedRolls zero ps align needRoll saved (seq :: seqs) =
      savedRolls zero ps align needRoll (savedRolls zero ps align needRoll saved [seq]) seqs := by
  unfold savedRolls
  by_cases h : needRoll = true ∧ 1 < ps.cpSize
  · grind
  · simp only [if_neg h]

section

variable {zero : α} {ps : ParallelState} {align : Nat} {needRoll : Bool} {m k : Nat}
  {s : ThdState α m} {done : List α}

/-- A turn of the loop writes the piece of the sequence behind the others. -/
def WritesPiece (zero : α) (ps : ParallelState) (align : Nat) (needRoll : Bool) (k : Nat)
    (s : ThdState α m) (done : List α) (seq : SeqSlot α) : Prop :=
  ∃ s', thdSeq zero ps align needRoll s seq = .ok s' ∧
    s'.inputIds.toList =
      (done ++ localPiece zero ps.cpSize ps.cpRank seq.seqlenPadded seq.tokens) ++
        replicate (k - seq.seqlenPadded / ps.cpSize) zero ∧
    s'.savedRoll = savedRolls zero ps align needRoll s.savedRoll [seq] ∧
    s'.savedPositionRoll.map Prod.fst = s'.savedRoll.map Prod.fst

variable (seq : SeqSlot α) (hbuf : s.inputIds.toList = done ++ replicate k zero)
  (hstart : done.length = seq.cuSeqlen / ps.cpSize) (hlen : seq.tokens.length ≤ seq.seqlenPadded)
  (hk : seq.seqlenPadded / ps.cpSize ≤ k)
  (hkeys : s.savedPositionRoll.map Prod.fst = s.savedRoll.map Prod.fst)
include hbuf hstart hlen hk hkeys

/-- A single rank copies the tokens. -/
theorem thdSeq_single (hcp : 1 ≤ ps.cpSize) (hone : ps.cpSize ≤ 1) :
    WritesPiece zero ps align needRoll k s done seq := by
  have hm : done.length + k = m := by
    rw [← s.inputIds.length_eq, hbuf, length_append, length_replicate]
  unfold WritesPiece thdSeq localPiece savedRolls
  rw [if_pos hone, if_pos hone, if_neg (by omega)]
  have hcpOne : ps.cpSize = 1 := by omega
  rw [hcpOne, Nat.div_one] at hstart hk
  obtain ⟨buf, hstore, hlist⟩ := store_behind hbuf hlen hk
  obtain ⟨positions, hpositions⟩ := exists_store s.positionIds seq.cuSeqlen
    (range seq.tokens.length) (by rw [length_range]; omega)
  rw [length_range] at hpositions
  dsimp only
  rw [hcpOne, Nat.div_one, ← hstart, hstore, hstart, hpositions]
  exact ⟨_, rfl, hlist, rfl, hkeys⟩

/-- One of several ranks copies a front chunk and a back chunk. -/
theorem thdSeq_shard (hrank : ps.cpRank < ps.cpSize) (hmany : 1 < ps.cpSize)
    (hdvd : 2 * ps.cpSize ∣ seq.seqlenPadded) (hholds : Holds ps.cpSize align seq)
    (hroll : needRoll = true → 0 < m ∧ Fits ps.cpSize align seq) :
    WritesPiece zero ps align needRoll k s done seq := by
  have hm : done.length + k = m := by
    rw [← s.inputIds.length_eq, hbuf, length_append, length_replicate]
  have hone : ¬ps.cpSize ≤ 1 := by omega
  unfold WritesPiece thdSeq localPiece savedRolls
  unfold Holds at hholds
  rw [← length_padTo_max zero] at hholds
  rw [if_neg hone, if_neg hone]
  obtain ⟨hchunk, hn⟩ := half_eq hmany hdvd
  have hsave := @saveRoll_eq α zero ps align m
  dsimp only
  rw [padTo_eq_ite]
  generalize hhalf : seq.seqlenPadded / ps.cpSize / 2 = h at hchunk hn hholds
  have hle := succ_mul_le (h := h) hrank
  have hsucc := Nat.add_one_mul ps.cpRank h
  have htwo := Nat.mul_assoc 2 ps.cpSize h
  have hcomm : ∀ r, h * r = r * h := Nat.mul_comm h
  -- the front chunk
  have hfrontLen : (getSlice (padTo zero align seq.tokens) (ps.cpRank * h) h).length = h :=
    length_getSlice (by omega)
  have hfront : getSlice (padTo zero seq.seqlenPadded seq.tokens) (ps.cpRank * h) h =
      padTo zero h (getSlice (padTo zero align seq.tokens) (ps.cpRank * h) h) := by
    rw [getSlice_padTo_padTo (a := align) (by omega) hlen, Nat.min_eq_left (by omega),
      Nat.add_sub_cancel_left]
  obtain ⟨buf1, hbuf1, hlist1⟩ := store_behind (w := h) hbuf hfrontLen.le (by omega)
  obtain ⟨positions1, hpositions1⟩ := exists_store s.positionIds done.length
    (range' (ps.cpRank * h) h) (by rw [length_range']; omega)
  rw [hfrontLen] at hbuf1
  rw [length_range'] at hpositions1
  -- the back chunk
  have hbackEq : getSlice (padTo zero seq.seqlenPadded seq.tokens)
      (seq.seqlenPadded - (ps.cpRank + 1) * h) h = padTo zero h
        (getSlice (padTo zero align seq.tokens) (seq.seqlenPadded - (ps.cpRank + 1) * h)
          (min (seq.seqlenPadded - ps.cpRank * h) (padTo zero align seq.tokens).length -
            (seq.seqlenPadded - (ps.cpRank + 1) * h))) := by
    rw [getSlice_padTo_padTo (a := align) (by omega) hlen,
      show seq.seqlenPadded - (ps.cpRank + 1) * h + h = seq.seqlenPadded - ps.cpRank * h by omega]
  generalize hback : getSlice (padTo zero align seq.tokens)
    (seq.seqlenPadded - (ps.cpRank + 1) * h)
    (min (seq.seqlenPadded - ps.cpRank * h) (padTo zero align seq.tokens).length -
      (seq.seqlenPadded - (ps.cpRank + 1) * h)) = back at hbackEq
  have hbackLen : back.length =
      min (seq.seqlenPadded - ps.cpRank * h) (padTo zero align seq.tokens).length -
        (seq.seqlenPadded - (ps.cpRank + 1) * h) := by
    rw [← hback]
    unfold getSlice
    rw [length_take, length_drop]
    omega
  obtain ⟨buf2, hbuf2, hlist2⟩ := storePositive_behind (w := h) hlist1
    (show back.length ≤ h by omega) (by omega)
  have hdone : (done ++ padTo zero h
      (getSlice (padTo zero align seq.tokens) (ps.cpRank * h) h)).length = done.length + h := by
    rw [length_append, length_padTo _ (by omega)]
  rw [hdone, hbackLen] at hbuf2
  obtain ⟨positions2, hpositions2⟩ := exists_storePositive positions1 (done.length + h)
    (range' (seq.seqlenPadded - (ps.cpRank + 1) * h)
      (min (min (seq.seqlenPadded - ps.cpRank * h) (padTo zero align seq.tokens).length)
        seq.tokens.length - (seq.seqlenPadded - (ps.cpRank + 1) * h)))
    (by rw [length_range']; omega)
  rw [length_range'] at hpositions2
  have hlocal : buf2.toList = (done ++ zigzagShard ps.cpSize h
      (padTo zero seq.seqlenPadded seq.tokens) ps.cpRank) ++
        replicate (k - seq.seqlenPadded / ps.cpSize) zero := by
    unfold zigzagShard
    rw [hlist2, hfront, ← hn, hbackEq]
    simp only [append_assoc]
    congr 4
    omega
  rw [hcomm, hcomm, ← hstart, hbuf1, ok_bind, hpositions1, ok_bind, hback, hbuf2, hpositions2]
  cases needRoll with
  | false => exact ⟨_, rfl, hlocal, rfl, hkeys⟩
  | true =>
    obtain ⟨hpos, hfits⟩ := hroll rfl
    unfold Fits at hfits
    rw [← length_padTo_max zero, hhalf] at hfits
    have hstop : done.length + 2 * h ≤ m := by omega
    obtain ⟨s', hroll, hids, hsaved, hkeys'⟩ := @hsave
      { s with inputIds := buf2, positionIds := positions2 } seq hpos
      (by rw [hhalf, ← hstart]; exact hstop) (by rw [hhalf, hcomm, hcomm]; omega)
      (by rw [hhalf]; omega) hkeys
    rw [hhalf, hcomm, hcomm, ← hstart] at hroll
    refine ⟨s', hroll, ?_, ?_, hkeys'⟩
    · grind
    · grind

/-- One turn of the loop writes the rank's piece behind the others, as `packSeq` does. -/
theorem thdSeq_eq (hcp : 1 ≤ ps.cpSize) (hrank : ps.cpRank < ps.cpSize)
    (hdvd : 1 < ps.cpSize → 2 * ps.cpSize ∣ seq.seqlenPadded)
    (hholds : 1 < ps.cpSize → Holds ps.cpSize align seq)
    (hroll : needRoll = true → 1 < ps.cpSize → 0 < m ∧ Fits ps.cpSize align seq) :
    WritesPiece zero ps align needRoll k s done seq := by
  by_cases hone : ps.cpSize ≤ 1
  · exact thdSeq_single seq hbuf hstart hlen hk hkeys hcp hone
  · have hmany : 1 < ps.cpSize := by omega
    exact thdSeq_shard seq hbuf hstart hlen hk hkeys hrank hmany (hdvd hmany) (hholds hmany)
      fun hneed => hroll hneed hmany

end

/-! ## Lemmas: the loop -/

/-- The loop packs the pieces of all sequences. -/
theorem foldlM_thdSeq {zero : α} {ps : ParallelState} {align : Nat} {needRoll : Bool}
    (hcp : 1 ≤ ps.cpSize) (hrank : ps.cpRank < ps.cpSize) {m : Nat} {seqs : List (List α)}
    {ns : List Nat} (h : Padded ps.cpSize seqs ns) {start k : Nat} {s : ThdState α m}
    {done : List α} (hbuf : s.inputIds.toList = done ++ replicate k zero)
    (hstart : done.length = start / ps.cpSize) (hdvd : ps.cpSize ∣ start)
    (hk : (ns.map (· / ps.cpSize)).sum ≤ k)
    (hholds : 1 < ps.cpSize → ∀ seq ∈ slotsFrom start seqs ns, Holds ps.cpSize align seq)
    (hroll : needRoll = true → 1 < ps.cpSize → 0 < m ∧ ∀ seq ∈ slotsFrom start seqs ns, Fits ps.cpSize align seq)
    (hkeys : s.savedPositionRoll.map Prod.fst = s.savedRoll.map Prod.fst) :
    ∃ s', (slotsFrom start seqs ns).foldlM (thdSeq zero ps align needRoll) s = .ok s' ∧
      s'.inputIds.toList = (done ++ (localPieces zero ps.cpSize ps.cpRank seqs ns).flatten) ++
        replicate (k - (ns.map (· / ps.cpSize)).sum) zero ∧
      s'.savedRoll = savedRolls zero ps align needRoll s.savedRoll (slotsFrom start seqs ns) ∧
      s'.savedPositionRoll.map Prod.fst = s'.savedRoll.map Prod.fst := by
  induction seqs generalizing ns start k s done with
  | nil =>
    cases h.le
    refine ⟨s, rfl, ?_, ?_, hkeys⟩
    · rw [hbuf]
      simp [localPieces]
    · unfold savedRolls
      simp [slotsFrom_nil]
  | cons d seqs ih =>
    cases ns with
    | nil => cases h.le
    | cons n ns =>
      obtain ⟨hd, -⟩ := forall₂_cons.1 h.le
      have hn := h.dvd n mem_cons_self
      have htwo : 1 < ps.cpSize → 2 * ps.cpSize ∣ n :=
        fun hone => h.twoDvd hone n mem_cons_self
      rw [map_cons, sum_cons] at hk
      rw [slotsFrom_cons] at hholds hroll ⊢
      obtain ⟨s1, hseq, hlist, hsaved, hkeys1⟩ := thdSeq_eq
        { tokens := d, seqlenPadded := n, cuSeqlen := start } hbuf hstart hd
        (by dsimp only; omega) hkeys hcp hrank htwo (fun hone => hholds hone _ mem_cons_self)
        fun hneed hone => ⟨(hroll hneed hone).1, (hroll hneed hone).2 _ mem_cons_self⟩
      dsimp only at hlist
      have hpiece := length_localPiece zero hcp hrank hd htwo
      have hnext : (done ++ localPiece zero ps.cpSize ps.cpRank n d).length =
          (start + n) / ps.cpSize := by
        rw [length_append, hstart, hpiece, Nat.add_div_of_dvd_right hdvd]
      obtain ⟨s', hloop, hlist', hsaved', hkeys'⟩ := ih h.tail hlist hnext (Nat.dvd_add hdvd hn)
        (by omega) (fun hone seq hseq => hholds hone seq (mem_cons_of_mem _ hseq))
        (fun hneed hone => ⟨(hroll hneed hone).1,
          fun seq hseq => (hroll hneed hone).2 seq (mem_cons_of_mem _ hseq)⟩) hkeys1
      refine ⟨s', ?_, ?_, ?_, hkeys'⟩
      · rw [foldlM_cons, hseq, ok_bind, hloop]
      · rw [hlist', map_cons, sum_cons, Nat.sub_sub]
        show _ = (done ++ (localPiece zero ps.cpSize ps.cpRank n d ++
          (localPieces zero ps.cpSize ps.cpRank seqs ns).flatten)) ++ _
        rw [append_assoc done]
      · rw [hsaved', hsaved, ← savedRolls_cons]

/-! ## Lemmas: what is saved -/

section SavedAfter

variable {zero : α} {ps : ParallelState} {align : Nat}

theorem savedKeys_savedAfter (zero : α) (align : Nat) {base : Nat} {saved : List (Int × α)}
    (seq : SeqSlot α) (h : SavedKeys base (saved.map Prod.fst)) (hstart : seq.cuSeqlen / ps.cpSize = base) :
    SavedKeys (base + 2 * (seq.seqlenPadded / ps.cpSize / 2))
      ((savedAfter zero ps align saved seq).map Prod.fst) := by
  unfold savedAfter
  rw [hstart]
  generalize seq.seqlenPadded / ps.cpSize / 2 = half
  have hsucc : half * (ps.cpRank + 1) = half * ps.cpRank + half := Nat.mul_succ _ _
  have hlow : (0 : Int) ≤ (base : Int) + half - 1 ∨ ∀ k ∈ saved.map Prod.fst, k = -1 := by
    by_cases hzero : base = 0
    · right
      intro k hk
      have hlt := h.lt k hk
      have hge := h.ge k hk
      omega
    · left
      omega
  have hfront := (h.mono (Nat.le_add_right base (2 * half))).dictSet ((base : Int) + half - 1)
    ((padTo zero align seq.tokens).getD ((ps.cpRank + 1) * half) zero)
    (by omega) (by omega) hlow
  by_cases hlen : 0 < min (seq.seqlenPadded - half * ps.cpRank)
      (padTo zero align seq.tokens).length - (seq.seqlenPadded - half * (ps.cpRank + 1))
  · rw [if_pos hlen]
    exact hfront.dictSet _ _ (by omega) (by omega) (.inl (by omega))
  · grind

theorem lookup_savedAfter (saved : List (Int × α)) (seq : SeqSlot α) (k : Int) :
    (savedAfter zero ps align saved seq).lookup k =
      let h := seq.seqlenPadded / ps.cpSize / 2
      let d := padTo zero align seq.tokens
      let remainEnd := min (seq.seqlenPadded - h * ps.cpRank) d.length
      let remainLen := remainEnd - (seq.seqlenPadded - h * (ps.cpRank + 1))
      if 0 < remainLen ∧ k = ((seq.cuSeqlen / ps.cpSize : Nat) : Int) + h + remainLen - 1 then
        some (d.getD (if remainEnd = d.length then 0 else remainEnd) zero)
      else if k = ((seq.cuSeqlen / ps.cpSize : Nat) : Int) + h - 1 then
        some (d.getD ((ps.cpRank + 1) * h) zero)
      else saved.lookup k := by
  unfold savedAfter
  dsimp only
  split
  · next hlen => simp only [lookup_dictSet, hlen, true_and]
  · next hlen => simp only [lookup_dictSet, hlen, false_and, if_false]

/-- The keys of a sequence are its own slots; an empty one has the slot before it. -/
theorem lookup_savedAfter_of_lt (saved : List (Int × α)) {seq : SeqSlot α} {k : Int}
    (hk : k + 1 < ((seq.cuSeqlen / ps.cpSize : Nat) : Int) + seq.seqlenPadded / ps.cpSize / 2) :
    (savedAfter zero ps align saved seq).lookup k = saved.lookup k := by
  rw [lookup_savedAfter]
  rw [if_neg (by omega), if_neg (by omega)]

theorem lookup_savedAfter_empty (saved : List (Int × α)) (seq : SeqSlot α)
    (hn : seq.seqlenPadded = 0) (htokens : seq.tokens = []) :
    (savedAfter zero ps align saved seq).lookup (((seq.cuSeqlen / ps.cpSize : Nat) : Int) - 1) =
      some zero := by
  rw [lookup_savedAfter]
  dsimp only
  rw [hn, htokens, Nat.zero_div, if_neg (by omega), if_pos (by omega)]
  unfold padTo
  rw [nil_append, getD_eq_getElem?_getD, getElem?_replicate]
  split
  · rfl
  · rfl

/-- The sequences from `start` on only save for slots behind it, or, when the first one is empty,
for the slot before it. -/
theorem lookup_foldl_savedAfter (hcp : 1 < ps.cpSize) {seqs : List (List α)} {ns : List Nat}
    (h : Padded ps.cpSize seqs ns) {start : Nat} (hdvd : ps.cpSize ∣ start)
    (saved : List (Int × α)) {k : Int} (hk : k < (start / ps.cpSize : Nat)) :
    ((slotsFrom start seqs ns).foldl (savedAfter zero ps align) saved).lookup k =
      if k + 1 = (start / ps.cpSize : Nat) ∧ ns.head? = some 0 then some zero
      else saved.lookup k := by
  induction seqs generalizing ns start saved with
  | nil =>
    cases h.le
    rw [if_neg (by simp)]
    rfl
  | cons d seqs ih =>
    cases ns with
    | nil => cases h.le
    | cons n ns =>
      obtain ⟨hchunk, -⟩ := half_eq hcp (h.twoDvd hcp n mem_cons_self)
      have hnext : (start + n) / ps.cpSize = start / ps.cpSize + n / ps.cpSize :=
        Nat.add_div_of_dvd_right hdvd
      rw [slotsFrom_cons, foldl_cons, ih h.tail (Nat.dvd_add hdvd (h.dvd n mem_cons_self))
        _ (by omega), hnext, head?_cons]
      by_cases hn : n = 0
      · subst hn
        have hd : d = [] := eq_nil_of_length_eq_zero
          (Nat.le_zero.1 (forall₂_cons.1 h.le).1)
        rw [Nat.zero_div]
        by_cases hlast : k + 1 = (start / ps.cpSize : Nat)
        · have hkey : k = ((start / ps.cpSize : Nat) : Int) - 1 := by omega
          have hhead : k + 1 = ((start / ps.cpSize : Nat) : Int) ∧ some 0 = some 0 := ⟨hlast, rfl⟩
          split
          · rfl
          · rw [hkey]
            exact lookup_savedAfter_empty saved
              { tokens := d, seqlenPadded := 0, cuSeqlen := start } rfl hd
        · rw [if_neg fun h => hlast h.1, if_neg fun h => hlast h.1]
          exact lookup_savedAfter_of_lt saved (by dsimp only; omega)
      · have hpos : 0 < n / ps.cpSize :=
          Nat.div_pos (Nat.le_of_dvd (by omega) (h.dvd n mem_cons_self)) (by omega)
        rw [if_neg (by omega), if_neg (by simp [hn])]
        exact lookup_savedAfter_of_lt saved (by dsimp only; omega)

/-- What is saved in the end for a slot of sequence `i`. -/
theorem lookup_saved (zero : α) (align : Nat) (hcp : 1 < ps.cpSize) {seqs : List (List α)}
    {ns : List Nat} (h : Padded ps.cpSize seqs ns) {start : Nat} (hdvd : ps.cpSize ∣ start)
    {saved : List (Int × α)} (hsaved : SavedKeys (start / ps.cpSize) (saved.map Prod.fst))
    {i n s : Nat} {d : List α} (hd : seqs[i]? = some d) (hn : ns[i]? = some n)
    (hs : s < n / ps.cpSize) :
    ((slotsFrom start seqs ns).foldl (savedAfter zero ps align) saved).lookup
        (((start + rowStart ns i) / ps.cpSize + s : Nat) : Int) =
      if s + 1 = n / ps.cpSize ∧ ns[i + 1]? = some 0 then some zero
      else (savedAfter zero ps align []
        { tokens := d, seqlenPadded := n, cuSeqlen := start + rowStart ns i }).lookup
          (((start + rowStart ns i) / ps.cpSize + s : Nat) : Int) := by
  induction i generalizing seqs ns start saved with
  | zero =>
    cases seqs with
    | nil => cases hd
    | cons d' seqs =>
      cases ns with
      | nil => cases hn
      | cons n' ns =>
        cases hd
        cases hn
        have hnext : (start + n) / ps.cpSize = start / ps.cpSize + n / ps.cpSize :=
          Nat.add_div_of_dvd_right hdvd
        have hzero : rowStart (n :: ns) 0 = 0 := rfl
        have hnone : saved.lookup ((start / ps.cpSize + s : Nat) : Int) = none := by
          rw [lookup_eq_none_iff]
          intro q hq
          have hlt := hsaved.lt q.1 (mem_map_of_mem hq)
          exact bne_iff_ne.2 (by omega)
        rw [hzero, Nat.add_zero, slotsFrom_cons, foldl_cons,
          lookup_foldl_savedAfter hcp h.tail (Nat.dvd_add hdvd (h.dvd n mem_cons_self)) _
            (by omega), getElem?_cons_succ, head?_eq_getElem?]
        by_cases hlast : s + 1 = n / ps.cpSize ∧ ns[0]? = some 0
        · grind
        · rw [if_neg hlast, if_neg fun h => hlast ⟨by omega, h.2⟩, lookup_savedAfter,
            lookup_savedAfter, hnone]
          rfl
  | succ i ih =>
    cases seqs with
    | nil => cases hd
    | cons d' seqs =>
      cases ns with
      | nil => cases hn
      | cons n' ns =>
        obtain ⟨hchunk, -⟩ := half_eq hcp (h.twoDvd hcp n' mem_cons_self)
        have hdvd' := Nat.dvd_add hdvd (h.dvd n' mem_cons_self)
        have hnext : (start + n') / ps.cpSize = start / ps.cpSize + n' / ps.cpSize :=
          Nat.add_div_of_dvd_right hdvd
        have hkeys := savedKeys_savedAfter zero align
          { tokens := d', seqlenPadded := n', cuSeqlen := start } hsaved rfl
        rw [← hchunk, ← hnext] at hkeys
        have hrow : start + rowStart (n' :: ns) (i + 1) = start + n' + rowStart ns i := by
          unfold rowStart
          rw [take_succ_cons, sum_cons, Nat.add_assoc]
        rw [hrow, slotsFrom_cons, foldl_cons, ih h.tail hdvd' hkeys hd hn,
          getElem?_cons_succ]

/-- What is saved for the slot of a token that is not the last one is the next token; where nothing
is saved, the next slot holds it. -/
theorem lookup_savedAfter_token (zero : α) (align start : Nat) {n s : Nat} {d : List α}
    (hcp : 1 < ps.cpSize) (hrank : ps.cpRank < ps.cpSize) (hdvd : 2 * ps.cpSize ∣ n)
    (hs : s < n / ps.cpSize)
    (hp : zigzagPosition ps.cpSize (n / ps.cpSize / 2) ps.cpRank s + 1 < d.length) :
    match (savedAfter zero ps align []
        { tokens := d, seqlenPadded := n, cuSeqlen := start }).lookup
          ((start / ps.cpSize + s : Nat) : Int) with
    | some v => d[zigzagPosition ps.cpSize (n / ps.cpSize / 2) ps.cpRank s + 1]? = some v
    | none => s + 1 < n / ps.cpSize ∧
        zigzagPosition ps.cpSize (n / ps.cpSize / 2) ps.cpRank (s + 1) =
          zigzagPosition ps.cpSize (n / ps.cpSize / 2) ps.cpRank s + 1 := by
  obtain ⟨hchunk, hn⟩ := half_eq hcp hdvd
  have hmax := length_padTo_max zero align d
  have hget : ∀ i < d.length, d[i]? = some ((padTo zero align d).getD i zero) := by
    intro i hi
    rw [getD_eq_getElem?_getD, getElem?_padTo_of_lt hi, getElem?_eq_getElem hi,
      Option.getD_some]
  rw [lookup_savedAfter]
  dsimp only
  rw [lookup_nil]
  generalize n / ps.cpSize / 2 = h at *
  have hle := succ_mul_le (h := h) hrank
  have hsucc := Nat.add_one_mul ps.cpRank h
  have hcomm : ∀ r, h * r = r * h := Nat.mul_comm h
  have htwo := Nat.mul_assoc 2 ps.cpSize h
  generalize hend : min (n - ps.cpRank * h) (padTo zero align d).length = remainEnd
  by_cases hsh : s < h
  · have hpos : zigzagPosition ps.cpSize h ps.cpRank s = ps.cpRank * h + s := if_pos hsh
    rw [hpos] at ⊢
    rw [if_neg (by omega)]
    by_cases hfront : s + 1 = h
    · grind
    · have hnext : zigzagPosition ps.cpSize h ps.cpRank (s + 1) = ps.cpRank * h + (s + 1) :=
        if_pos (by omega)
      rw [if_neg (by omega)]
      exact ⟨by omega, hnext⟩
  · have hpos : zigzagPosition ps.cpSize h ps.cpRank s =
        2 * ps.cpSize * h - (ps.cpRank + 1) * h + (s - h) := if_neg hsh
    have hnext : zigzagPosition ps.cpSize h ps.cpRank (s + 1) =
        2 * ps.cpSize * h - (ps.cpRank + 1) * h + (s + 1 - h) := if_neg (by omega)
    by_cases hback : n - (ps.cpRank + 1) * h + (s - h) + 1 = remainEnd
    · grind
    · grind

end SavedAfter

end Verl.MCore
