import Verl.Lib.Dict
import Verl.Lib.PyStr
import Verl.Trainer.Grpo

/-! # Advantages of sessions with several outputs (`verl/trainer/main_ppo_sync.py`)

Each row of a batch is one output of a session and has the key `uid_session_index`.  With GRPO only
the last output of a session is scored; its normalised score goes to all rows of the session.

* `scanKeys`: the last row of each session, by a running maximum.
* `computeAdvantageForMultiTrajectories`: these rows are selected, scored by
  `computeGrpoOutcomeAdvantage`, read back at their first unmasked token and scattered.

`multiTrajectories_spec` says what every row gets, and that neither the order of the rows nor the
rewards of the other rows matter. -/

namespace Verl.MultiTrajectories

open List Function Dict

/-! ## Algorithm -/

/-- The columns of `data` that are read. -/
structure AdvantageData (K U : Type) (bsz responseLength : Nat) where
  tokenLevelRewards : Fin bsz → Fin responseLength → K
  responseMask : Fin bsz → Fin responseLength → Bool
  uid : Fin bsz → U

section Algorithm

variable {K U : Type} {bsz responseLength : Nat}

/-- The rows in another order. -/
def AdvantageData.permute (data : AdvantageData K U bsz responseLength)
    (order : Equiv.Perm (Fin bsz)) : AdvantageData K U bsz responseLength where
  tokenLevelRewards := fun i => data.tokenLevelRewards (order i)
  responseMask := fun i => data.responseMask (order i)
  uid := fun i => data.uid (order i)

/-- `data.select_idxs(idxs)`. -/
def AdvantageData.selectIdxs (data : AdvantageData K U bsz responseLength)
    (idxs : List (Fin bsz)) : AdvantageData K U idxs.length responseLength where
  tokenLevelRewards := fun k => data.tokenLevelRewards (idxs.get k)
  responseMask := fun k => data.responseMask (idxs.get k)
  uid := fun k => data.uid (idxs.get k)

/-- The session key and the index of a row. -/
def parseKey (key : String) : Except PyErr (String × Int) :=
  match rsplit '_' 2 key.toList with
  | [uid, sessionId, index] => do
    let index ← pyInt index
    return (String.ofList uid ++ "_" ++ String.ofList sessionId, index)
  | _ => .error (.assertionError s!"Unexpected key format: {key}")

/-- Row `i` is kept if its index is the largest so far. -/
def recordFinal (finalSessions : Dict (Int × Fin bsz)) (sessionKey : String) (index : Int)
    (i : Fin bsz) : Dict (Int × Fin bsz) :=
  match finalSessions.get? sessionKey with
  | none => finalSessions.insert sessionKey (index, i)
  | some (best, _) =>
    if best < index then finalSessions.insert sessionKey (index, i) else finalSessions

/-- `final_sessions` and `row_session_keys`. -/
def scanKeys (batchKeys : Fin bsz → String) :
    Except PyErr (Dict (Int × Fin bsz) × List String) :=
  (List.finRange bsz).foldlM (fun s i => do
    let (sessionKey, index) ← parseKey (batchKeys i)
    return (recordFinal s.1 sessionKey index i, s.2 ++ [sessionKey])) (Dict.empty, [])

/-- `final_indices` and `session_key_to_local_index`. -/
def localIndices (items : List (String × Int × Fin bsz)) : List (Fin bsz) × Dict Nat :=
  items.foldl (fun s p =>
    let finalIndices := s.1 ++ [p.2.2]
    (finalIndices, s.2.insert p.1 (finalIndices.length - 1))) ([], Dict.empty)

/-- `mask.argmax(dim=1)`: the first largest entry of every row. -/
def argmax (mask : Fin bsz → Fin responseLength → Nat) :
    Except PyErr (Fin bsz → Fin responseLength) :=
  if h : 0 < responseLength then
    .ok fun i => (List.finRange responseLength).foldl
      (fun best t => if mask i best < mask i t then t else best) ⟨0, h⟩
  else .error .indexError

variable [Field K]

def maskTensor (mask : Fin bsz → Fin responseLength → Bool) : Fin bsz → Fin responseLength → K :=
  fun i t => if mask i t then 1 else 0

/-- `compute_advantage` with GRPO; `epsilon` has its default. -/
def computeAdvantage [DecidableEq U] [ToString U] (sqrt : K → K)
    (data : AdvantageData K U bsz responseLength) (normAdvByStdInGrpo : Bool) :
    Except PyErr ((Fin bsz → Fin responseLength → K) × (Fin bsz → Fin responseLength → K)) :=
  computeGrpoOutcomeAdvantage sqrt data.tokenLevelRewards (maskTensor data.responseMask) data.uid
    (1 / 10 ^ 6) normAdvByStdInGrpo

/-- The advantages and the returns, for GRPO. -/
def computeAdvantageForMultiTrajectories [DecidableEq U] [ToString U] (sqrt : K → K)
    (data : AdvantageData K U bsz responseLength) (batchKeys : Fin bsz → String)
    (normAdvByStdInGrpo : Bool) :
    Except PyErr ((Fin bsz → Fin responseLength → K) × (Fin bsz → Fin responseLength → K)) := do
  let (finalSessions, rowSessionKeys) ← scanKeys batchKeys
  let (finalIndices, sessionKeyToLocalIndex) := localIndices finalSessions.items
  let rowToLocalIndex ← rowSessionKeys.mapM fun sessionKey =>
    match sessionKeyToLocalIndex.get? sessionKey with
    | some k => .ok k
    | none => .error (.keyError sessionKey)
  let finalData := data.selectIdxs finalIndices
  let (advantages, _) ← computeAdvantage sqrt finalData normAdvByStdInGrpo
  let firstNnzIndices ← argmax fun k t => (finalData.responseMask k t).toNat
  let finalScores := List.ofFn fun k => advantages k (firstNnzIndices k)
  let scores ← rowToLocalIndex.mapM fun k =>
    match finalScores[k]? with
    | some score => .ok score
    | none => .error .indexError
  let scores := maskScores (fun i => (scores[i.val]?).getD 0) (maskTensor data.responseMask)
  return (scores, scores)

end Algorithm

/-! ## Keys -/

/-- What a key is made of. -/
@[ext]
structure RowKey where
  uid : String
  session : Nat
  index : Nat
  deriving DecidableEq, Repr

namespace RowKey

def format (k : RowKey) : String := s!"{k.uid}_{k.session}_{k.index}"

def sessionKey (k : RowKey) : String := s!"{k.uid}_{k.session}"

/-- Rows of one session. -/
def SameSession (k k' : RowKey) : Prop := k.uid = k'.uid ∧ k.session = k'.session

instance (k k' : RowKey) : Decidable (SameSession k k') :=
  inferInstanceAs (Decidable (_ ∧ _))

theorem toList_sessionKey (k : RowKey) :
    k.sessionKey.toList = k.uid.toList ++ '_' :: Nat.toDigits 10 k.session := by
  simp [sessionKey, toString]

theorem toList_format (k : RowKey) :
    k.format.toList = k.sessionKey.toList ++ '_' :: Nat.toDigits 10 k.index := by
  simp [format, sessionKey, toString]

theorem sessionKey_eq_iff {k k' : RowKey} : k.sessionKey = k'.sessionKey ↔ k.SameSession k' := by
  constructor
  · intro h
    have hsplit : ∀ k : RowKey, splitLast '_' k.sessionKey.toList =
        some (k.uid.toList, Nat.toDigits 10 k.session) := by
      intro k
      rw [toList_sessionKey]
      exact splitLast_append _ Nat.underscore_not_in_toDigits
    have heq := hsplit k
    rw [h, hsplit k'] at heq
    obtain ⟨huid, hsession⟩ := Prod.mk.inj (Option.some.inj heq)
    refine ⟨String.toList_inj.mp huid.symm, ?_⟩
    calc k.session = Nat.ofDigitChars 10 (Nat.toDigits 10 k.session) 0 :=
          Nat.ofDigitChars_ten_toDigits.symm
      _ = k'.session := by rw [← hsession, Nat.ofDigitChars_ten_toDigits]
  · rintro ⟨huid, hsession⟩
    unfold sessionKey
    rw [huid, hsession]

/-- Underscores in the uid do no harm: the fields are taken from the right. -/
theorem parseKey_format (k : RowKey) : parseKey k.format = .ok (k.sessionKey, (k.index : Int)) := by
  have hsplit : rsplit '_' 2 k.format.toList =
      [k.uid.toList, Nat.toDigits 10 k.session, Nat.toDigits 10 k.index] := by
    rw [toList_format, rsplit_append 1 _ Nat.underscore_not_in_toDigits, toList_sessionKey,
      rsplit_append 0 _ Nat.underscore_not_in_toDigits]
    rfl
  have hkey : String.ofList k.uid.toList ++ "_" ++ String.ofList (Nat.toDigits 10 k.session) =
      k.sessionKey := by
    rw [← String.toList_inj, toList_sessionKey]
    simp
  unfold parseKey
  rw [hsplit]
  simp only [pyInt_toDigits, hkey]
  rfl

theorem format_injective : Injective format := by
  intro k k' h
  have hparse := congrArg parseKey h
  rw [parseKey_format, parseKey_format] at hparse
  obtain ⟨hkey, hindex⟩ := Prod.mk.inj (Except.ok.inj hparse)
  obtain ⟨huid, hsession⟩ := sessionKey_eq_iff.mp hkey
  exact RowKey.ext huid hsession (Int.ofNat.inj hindex)

end RowKey

/-! ## The last rows -/

section Scan

variable {bsz : Nat} (keys : Fin bsz → RowKey)

/-- The table after the rows `done`: every session that was seen has an entry, its row with
the largest index. -/
structure Scanned (done : List (Fin bsz)) (finalSessions : Dict (Int × Fin bsz)) : Prop where
  seen : ∀ i ∈ done, (keys i).sessionKey ∈ finalSessions.keys
  last : ∀ sessionKey index i, finalSessions.get? sessionKey = some (index, i) →
    i ∈ done ∧ (keys i).sessionKey = sessionKey ∧ index = (keys i).index ∧
      ∀ j ∈ done, (keys j).sessionKey = sessionKey → (keys j).index ≤ (keys i).index

variable {keys}

variable {done : List (Fin bsz)} {d : Dict (Int × Fin bsz)}

theorem scanned_insert {i : Fin bsz}
    (h : Scanned keys done d)
    (hbest : ∀ j ∈ done, (keys j).sessionKey = (keys i).sessionKey →
      (keys j).index ≤ (keys i).index) :
    Scanned keys (done ++ [i]) (d.insert (keys i).sessionKey ((keys i).index, i)) := by
  have hmem : ∀ {j k : Fin bsz}, j ∈ done ++ [k] → j ∈ done ∨ j = k := fun hj =>
    (mem_append.mp hj).imp_right mem_singleton.mp
  constructor
  · intro j hj
    rw [← isSome_get?_iff, get?_insert]
    split
    · rfl
    · rename_i hne
      rcases hmem hj with hj | rfl
      · exact isSome_get?_iff.mpr (h.seen j hj)
      · exact absurd rfl hne
  · intro sessionKey index r hr
    rw [get?_insert] at hr
    split at hr
    · grind
    · rename_i hne
      obtain ⟨hrdone, hrkey, hindex, hle⟩ := h.last sessionKey index r hr
      refine ⟨mem_append_left _ hrdone, hrkey, hindex, fun j hj hkey => ?_⟩
      rcases hmem hj with hj | rfl
      · exact hle j hj hkey
      · exact absurd hkey.symm hne

theorem scanned_recordFinal (h : Scanned keys done d) (i : Fin bsz) :
    Scanned keys (done ++ [i]) (recordFinal d (keys i).sessionKey (keys i).index i) := by
  unfold recordFinal
  cases hget : d.get? (keys i).sessionKey with
  | none =>
    -- the first row of its session
    apply scanned_insert h
    intro j hj hkey
    have hseen := h.seen j hj
    rw [hkey] at hseen
    exact absurd hseen (get?_eq_none_iff.mp hget)
  | some entry =>
    obtain ⟨best, r⟩ := entry
    obtain ⟨hrdone, hrkey, rfl, hle⟩ := h.last _ _ _ hget
    dsimp only
    by_cases hlt : ((keys r).index : Int) < (keys i).index
    · rw [if_pos hlt]
      apply scanned_insert h
      intro j hj hkey
      have hj' := hle j hj hkey
      omega
    · rw [if_neg hlt]
      constructor
      · intro j hj
        rcases mem_append.mp hj with hj | hj
        · exact h.seen j hj
        · rw [mem_singleton.mp hj, ← isSome_get?_iff, hget]
          rfl
      · intro sessionKey index r' hr'
        obtain ⟨hdone, hkey', hindex, hle'⟩ := h.last sessionKey index r' hr'
        refine ⟨mem_append_left _ hdone, hkey', hindex, fun j hj hkey => ?_⟩
        rcases mem_append.mp hj with hj | hj
        · exact hle' j hj hkey
        · grind

theorem scanKeys_eq (keys : Fin bsz → RowKey) : ∃ d, scanKeys (fun i => (keys i).format) =
        .ok (d, (finRange bsz).map fun i => (keys i).sessionKey) ∧
      Scanned keys (finRange bsz) d := by
  have hrun : ∀ (is done : List (Fin bsz)) (d : Dict (Int × Fin bsz)) (rows : List String),
      Scanned keys done d → ∃ d',
        is.foldl (fun s i => (recordFinal s.1 (keys i).sessionKey (keys i).index i,
          s.2 ++ [(keys i).sessionKey])) (d, rows) =
            (d', rows ++ is.map fun i => (keys i).sessionKey) ∧
        Scanned keys (done ++ is) d' := by
    intro is
    induction is with
    | nil =>
      intro done d rows h
      exact ⟨d, by simp, by simpa using h⟩
    | cons i is ih =>
      intro done d rows h
      obtain ⟨d', hfold, hscanned⟩ := ih (done ++ [i]) _ (rows ++ [(keys i).sessionKey])
        (scanned_recordFinal h i)
      refine ⟨d', ?_, ?_⟩
      · grind
      · grind
  have hempty : Scanned keys [] (Dict.empty : Dict (Int × Fin bsz)) := by
    constructor
    · intro i hi
      cases hi
    · intro sessionKey index i hi
      cases hi
  obtain ⟨d, hfold, hscanned⟩ := hrun (finRange bsz) [] Dict.empty [] hempty
  refine ⟨d, ?_, by simpa using hscanned⟩
  unfold scanKeys
  rw [foldlM_eq_ok_foldl _ (fun s i => (recordFinal s.1 (keys i).sessionKey (keys i).index i,
    s.2 ++ [(keys i).sessionKey])), hfold]
  · rfl
  · intro s i _
    rw [RowKey.parseKey_format]
    rfl

end Scan

/-- The numbers of the last rows: the place of its session among the entries. -/
theorem localIndices_spec {bsz : Nat} {items : List (String × Int × Fin bsz)}
    (hnodup : (items.map Prod.fst).Nodup) :
    (localIndices items).1 = items.map (·.2.2) ∧
      ∀ k p, items[k]? = some p → (localIndices items).2.get? p.1 = some k := by
  have hfold : ∀ (items : List (String × Int × Fin bsz)) (rows : List (Fin bsz)) (d : Dict Nat),
      (items.map Prod.fst).Nodup →
      let s := items.foldl (fun s p =>
        let finalIndices := s.1 ++ [p.2.2]
        (finalIndices, s.2.insert p.1 (finalIndices.length - 1))) (rows, d)
      s.1 = rows ++ items.map (·.2.2) ∧
        (∀ k p, items[k]? = some p → s.2.get? p.1 = some (rows.length + k)) ∧
        ∀ key, key ∉ items.map Prod.fst → s.2.get? key = d.get? key := by
    intro items
    induction items with
    | nil =>
      intro rows d _
      refine ⟨(append_nil rows).symm, ?_, fun _ _ => rfl⟩
      intro k p hk
      cases hk
    | cons q items ih =>
      intro rows d hnodup
      rw [map_cons, nodup_cons] at hnodup
      obtain ⟨hrows, hget, hother⟩ := ih (rows ++ [q.2.2])
        (d.insert q.1 ((rows ++ [q.2.2]).length - 1)) hnodup.2
      refine ⟨?_, fun k p hk => ?_, fun key hkey => ?_⟩
      · grind
      · rw [foldl_cons]
        cases k with
        | zero =>
          obtain rfl := Option.some.inj hk
          rw [hother q.1 hnodup.1, get?_insert, if_pos rfl, length_append]
          rfl
        | succ k =>
          rw [hget k p hk, length_append]
          congr 1
          simp only [length_singleton]
          omega
      · rw [map_cons, mem_cons, not_or] at hkey
        rw [foldl_cons, hother key hkey.2, get?_insert, if_neg hkey.1]
  obtain ⟨hrows, hget, -⟩ := hfold items [] Dict.empty hnodup
  refine ⟨hrows, fun k p hk => ?_⟩
  have h := hget k p hk
  rw [length_nil, Nat.zero_add] at h
  exact h

/-! ## What a row gets -/

section Spec

variable {K U : Type} {bsz responseLength : Nat}

/-- The row with the largest index of its session. -/
def IsFinal (keys : Fin bsz → RowKey) (r : Fin bsz) : Prop :=
  ∀ j, (keys j).SameSession (keys r) → (keys j).index ≤ (keys r).index

instance (keys : Fin bsz → RowKey) : DecidablePred (IsFinal keys) := fun r =>
  inferInstanceAs (Decidable (∀ j, (keys j).SameSession (keys r) → _))

/-- The last rows with the uid of row `r`. -/
def finalGroup [DecidableEq U] (keys : Fin bsz → RowKey) (uid : Fin bsz → U) (r : Fin bsz) :
    Finset (Fin bsz) := {r' | IsFinal keys r' ∧ uid r' = uid r}

/-- The score of a row, normalised over `group`. -/
def groupScore [Field K] (sqrt : K → K) (norm : Bool) (group : Finset (Fin bsz))
    (scores : Fin bsz → K) (r : Fin bsz) : K :=
  normalise norm (1 / 10 ^ 6) (if group.card = 1 then 0 else sampleMean group scores)
    (if group.card = 1 then 1 else sqrt (sampleVariance group scores)) (scores r)

/-- The score of a last row, normalised over the last rows with its uid. -/
def finalScore [Field K] [DecidableEq U] (sqrt : K → K) (keys : Fin bsz → RowKey)
    (data : AdvantageData K U bsz responseLength) (norm : Bool) (r : Fin bsz) : K :=
  groupScore sqrt norm (finalGroup keys data.uid r) (outcomeScores data.tokenLevelRewards) r

variable {keys : Fin bsz → RowKey} {d : Dict (Int × Fin bsz)}

theorem IsFinal.unique (hkeys : Injective keys) {r r' : Fin bsz}
    (hr : IsFinal keys r) (hr' : IsFinal keys r') (h : (keys r).SameSession (keys r')) :
    r = r' := by
  have hle := hr' r h
  have hge := hr r' ⟨h.1.symm, h.2.symm⟩
  exact hkeys (RowKey.ext h.1 h.2 (Nat.le_antisymm hle hge))

theorem mem_items_iff_isFinal (hkeys : Injective keys)
    (h : Scanned keys (finRange bsz) d) (r : Fin bsz) :
    r ∈ d.items.map (·.2.2) ↔ IsFinal keys r := by
  have hfinal : ∀ sessionKey index r, d.get? sessionKey = some (index, r) → IsFinal keys r := by
    intro sessionKey index r hr j hj
    obtain ⟨-, hkey, -, hle⟩ := h.last sessionKey index r hr
    exact hle j (mem_finRange j) ((RowKey.sessionKey_eq_iff.mpr hj).trans hkey)
  constructor
  · intro hr
    obtain ⟨⟨sessionKey, index, r'⟩, hp, rfl⟩ := mem_map.mp hr
    exact hfinal sessionKey index r' (get?_eq_some hp)
  · intro hr
    have hseen := h.seen r (mem_finRange r)
    obtain ⟨⟨index, r'⟩, hget⟩ := Option.isSome_iff_exists.mp (isSome_get?_iff.mpr hseen)
    obtain ⟨-, hkey, -, -⟩ := h.last _ _ _ hget
    have heq := (hfinal _ _ _ hget).unique hkeys hr (RowKey.sessionKey_eq_iff.mp hkey)
    rw [← heq]
    exact mem_map_of_mem (mem_items_of_get? hget)

theorem nodup_finalIndices (h : Scanned keys (finRange bsz) d) : (d.items.map (·.2.2)).Nodup := by
  have hkeys : (d.items.map (·.2.2)).map (fun r => (keys r).sessionKey) = d.keys := by
    rw [map_map]
    apply map_congr_left
    rintro ⟨sessionKey, index, r⟩ hp
    exact (h.last sessionKey index r (get?_eq_some hp)).2.1
  apply Nodup.of_map fun r => (keys r).sessionKey
  rw [hkeys]
  exact d.nodup

variable [Field K]

/-- Selecting the last rows changes nothing in their groups. -/
theorem computeAdvantage_selectIdxs [DecidableEq U] [ToString U] (sqrt : K → K)
    (data : AdvantageData K U bsz responseLength) (norm : Bool)
    {rows : List (Fin bsz)} (hnodup : rows.Nodup) (hrows : ∀ r, r ∈ rows ↔ IsFinal keys r) :
    let advantages := maskScores (fun k => finalScore sqrt keys data norm (rows.get k))
      (maskTensor (data.selectIdxs rows).responseMask)
    computeAdvantage sqrt (data.selectIdxs rows) norm = .ok (advantages, advantages) := by
  intro advantages
  let select : Fin rows.length ↪ Fin bsz := ⟨rows.get, hnodup.injective_get⟩
  have hgroup : ∀ k, finalGroup keys data.uid (rows.get k) =
      (promptSamples (data.selectIdxs rows).uid k).map select := by
    intro k
    ext r
    simp only [finalGroup, promptSamples, Finset.mem_filter, Finset.mem_univ, true_and,
      Finset.mem_map]
    constructor
    · rintro ⟨hr, huid⟩
      obtain ⟨j, rfl⟩ := get_of_mem ((hrows r).mpr hr)
      exact ⟨j, huid, rfl⟩
    · rintro ⟨j, huid, rfl⟩
      exact ⟨(hrows _).mp (get_mem rows j), huid⟩
  unfold computeAdvantage
  rw [computeGrpoOutcomeAdvantage_eq]
  have hscore : ∀ k, finalScore sqrt keys data norm (rows.get k) =
      normalise norm (1 / 10 ^ 6)
        (groupMean (data.selectIdxs rows).uid
          (outcomeScores (data.selectIdxs rows).tokenLevelRewards) k)
        (groupStd sqrt id (data.selectIdxs rows).uid
          (outcomeScores (data.selectIdxs rows).tokenLevelRewards) k)
        (outcomeScores (data.selectIdxs rows).tokenLevelRewards k) := by
    intro k
    unfold finalScore groupScore
    rw [hgroup k, Finset.card_map, sampleMean_map, sampleVariance_map]
    rfl
  simp only [advantages, hscore]

theorem argmax_eq (mask : Fin bsz → Fin responseLength → Bool) (hpos : 0 < responseLength) :
    ∃ firstNnz, argmax (fun i t => (mask i t).toNat) = .ok firstNnz ∧
      ∀ i, (∃ t, mask i t = true) → mask i (firstNnz i) = true := by
  have hfold : ∀ (row : Fin responseLength → Nat) (ts : List (Fin responseLength))
      (best : Fin responseLength),
      row best ≤ row (ts.foldl (fun best t => if row best < row t then t else best) best) ∧
      ∀ t ∈ ts, row t ≤
        row (ts.foldl (fun best t => if row best < row t then t else best) best) := by
    intro row ts
    induction ts with
    | nil => exact fun best => ⟨Nat.le_refl _, fun t ht => by cases ht⟩
    | cons t ts ih =>
      intro best
      obtain ⟨hbest, hts⟩ := ih (if row best < row t then t else best)
      have hstep : row best ≤ row (if row best < row t then t else best) ∧
          row t ≤ row (if row best < row t then t else best) := by grind
      refine ⟨hstep.1.trans hbest, fun t' ht' => ?_⟩
      rcases mem_cons.mp ht' with rfl | ht'
      · exact hstep.2.trans hbest
      · exact hts t' ht'
  refine ⟨_, dif_pos hpos, ?_⟩
  rintro i ⟨t, ht⟩
  have hle := (hfold (fun t => (mask i t).toNat) (finRange responseLength)
    ⟨0, hpos⟩).2 t (mem_finRange t)
  simp only [ht, Bool.toNat_true] at hle
  by_contra hfalse
  rw [Bool.not_eq_true] at hfalse
  simp only [hfalse, Bool.toNat_false] at hle
  omega

theorem exists_item (h : Scanned keys (finRange bsz) d) (i : Fin bsz) :
    ∃ (k : Nat) (p : String × Int × Fin bsz), d.items[k]? = some p ∧
      p.1 = (keys i).sessionKey ∧ (keys p.2.2).SameSession (keys i) := by
  have hseen := h.seen i (mem_finRange i)
  obtain ⟨⟨index, r⟩, hget⟩ := Option.isSome_iff_exists.mp (isSome_get?_iff.mpr hseen)
  obtain ⟨k, hk⟩ := mem_iff_getElem?.mp (mem_items_of_get? hget)
  obtain ⟨-, hkey, -, -⟩ := h.last _ _ _ hget
  exact ⟨k, _, hk, rfl, RowKey.sessionKey_eq_iff.mp hkey⟩

theorem maskScores_of_unmasked {n : Nat} {scores : Fin n → K}
    {mask : Fin n → Fin responseLength → Bool} {r : Fin n} {t : Fin responseLength}
    (h : mask r t = true) : maskScores scores (maskTensor mask) r t = scores r := by
  unfold maskScores maskTensor
  rw [if_pos h, mul_one]

theorem getD_map_finRange (value : Fin bsz → K) :
    (fun i : Fin bsz => (((finRange bsz).map value)[i.val]?).getD 0) = value := by simp

/-- The score that is read back from a last row: without an unmasked token it is 0. -/
def sessionScore [DecidableEq U] (sqrt : K → K) (keys : Fin bsz → RowKey)
    (data : AdvantageData K U bsz responseLength) (norm : Bool) (r : Fin bsz) : K :=
  if ∃ t, data.responseMask r t = true then finalScore sqrt keys data norm r else 0

section

variable [DecidableEq U] [ToString U] (sqrt : K → K) (hkeys : Injective keys)
  (data : AdvantageData K U bsz responseLength) (norm : Bool)
include sqrt hkeys data norm

/-- It returns, and every row gets the score of the last row of its session. -/
theorem computeAdvantageForMultiTrajectories_of_pos (hpos : 0 < responseLength) :
    ∃ last : Fin bsz → Fin bsz,
      (∀ i, IsFinal keys (last i) ∧ (keys (last i)).SameSession (keys i)) ∧
      let advantages := maskScores (fun i => sessionScore sqrt keys data norm (last i))
        (maskTensor data.responseMask)
      computeAdvantageForMultiTrajectories sqrt data (fun i => (keys i).format) norm =
        .ok (advantages, advantages) := by
  obtain ⟨d, hscan, hscanned⟩ := scanKeys_eq keys
  obtain ⟨hindices, hlocal⟩ := localIndices_spec d.nodup
  have hfinal := mem_items_iff_isFinal hkeys hscanned
  choose place item hitem hitemKey hsame using fun i => exists_item hscanned i
  have hlast : ∀ i, IsFinal keys (item i).2.2 := fun i =>
    (hfinal _).mp (mem_map_of_mem (mem_of_getElem? (hitem i)))
  refine ⟨fun i => (item i).2.2, fun i => ⟨hlast i, hsame i⟩, ?_⟩
  intro advantages
  unfold computeAdvantageForMultiTrajectories
  rw [hscan, ok_bind]
  dsimp only
  generalize localIndices d.items = indices at hindices hlocal ⊢
  obtain ⟨rows, table⟩ := indices
  obtain rfl : rows = d.items.map (·.2.2) := hindices
  -- the numbers of the last rows
  have hplaces : ((finRange bsz).map fun i => (keys i).sessionKey).mapM (fun sessionKey =>
      match table.get? sessionKey with
      | some k => Except.ok k
      | none => Except.error (PyErr.keyError sessionKey)) =
      .ok ((finRange bsz).map place) := by
    rw [mapM_map]
    apply mapM_eq_ok_map
    intro i _
    have hget := hlocal (place i) (item i) (hitem i)
    rw [hitemKey i] at hget
    simp only [comp_apply, hget]
  rw [hplaces, ok_bind, computeAdvantage_selectIdxs sqrt data norm
    (nodup_finalIndices hscanned) hfinal, ok_bind]
  obtain ⟨firstNnz, hargmax, hone⟩ :=
    argmax_eq (data.selectIdxs (d.items.map (·.2.2))).responseMask hpos
  rw [hargmax, ok_bind]
  -- every row reads the score of its last row
  have hscores : ((finRange bsz).map place).mapM (fun k =>
      match (ofFn fun k => maskScores (fun k => finalScore sqrt keys data norm
          ((d.items.map (·.2.2)).get k)) (maskTensor
            (data.selectIdxs (d.items.map (·.2.2))).responseMask) k (firstNnz k))[k]? with
      | some score => Except.ok score
      | none => Except.error PyErr.indexError) =
      .ok ((finRange bsz).map fun i => sessionScore sqrt keys data norm (item i).2.2) := by
    rw [mapM_map]
    apply mapM_eq_ok_map
    intro i _
    have hrow : (d.items.map (·.2.2))[place i]? = some (item i).2.2 := by grind
    obtain ⟨hlt, hget⟩ := List.getElem?_eq_some_iff.mp hrow
    have hget' : (d.items.map (·.2.2)).get ⟨place i, hlt⟩ = (item i).2.2 := hget
    simp only [comp_apply]
    rw [List.getElem?_ofFn, dif_pos hlt]
    have hvalue : maskScores (fun k => finalScore sqrt keys data norm
        ((d.items.map (·.2.2)).get k))
        (maskTensor (data.selectIdxs (d.items.map (·.2.2))).responseMask) ⟨place i, hlt⟩
        (firstNnz ⟨place i, hlt⟩) = sessionScore sqrt keys data norm (item i).2.2 := by
      unfold sessionScore
      by_cases hunmasked : ∃ t, data.responseMask (item i).2.2 t = true
      · rw [if_pos hunmasked, maskScores_of_unmasked (hone ⟨place i, hlt⟩ (by
          rw [← hget'] at hunmasked
          exact hunmasked)), hget']
      · have hzero : ∀ t, ¬(data.selectIdxs (d.items.map (·.2.2))).responseMask
            ⟨place i, hlt⟩ t = true := fun t ht => hunmasked ⟨t, hget' ▸ ht⟩
        rw [if_neg hunmasked, maskScores, maskTensor, if_neg (hzero _), mul_zero]
    rw [hvalue]
  rw [hscores, ok_bind]
  rw [getD_map_finRange fun i => sessionScore sqrt keys data norm (item i).2.2]
  rfl

theorem computeAdvantageForMultiTrajectories_eq (hrows : 0 < bsz)
    (hmask : ∀ r, IsFinal keys r → ∃ t, data.responseMask r t = true) :
    ∃ last : Fin bsz → Fin bsz,
      (∀ i, IsFinal keys (last i) ∧ (keys (last i)).SameSession (keys i)) ∧
      let advantages := maskScores (fun i => finalScore sqrt keys data norm (last i))
        (maskTensor data.responseMask)
      computeAdvantageForMultiTrajectories sqrt data (fun i => (keys i).format) norm =
        .ok (advantages, advantages) := by
  have hpos : 0 < responseLength := by
    obtain ⟨d, -, hscanned⟩ := scanKeys_eq keys
    obtain ⟨_, _, hitem, -, -⟩ := exists_item hscanned ⟨0, hrows⟩
    obtain ⟨t, -⟩ := hmask _ ((mem_items_iff_isFinal hkeys hscanned _).mp
      (mem_map_of_mem (mem_of_getElem? hitem)))
    exact t.pos
  obtain ⟨last, hlast, hresult⟩ :=
    computeAdvantageForMultiTrajectories_of_pos sqrt hkeys data norm hpos
  refine ⟨last, hlast, ?_⟩
  have hscore : (fun i => finalScore sqrt keys data norm (last i)) =
      fun i => sessionScore sqrt keys data norm (last i) := by
    funext i
    exact (if_pos (hmask _ (hlast i).1)).symm
  rw [hscore]
  exact hresult

end

theorem responseLength_pos [DecidableEq U] [ToString U] {sqrt : K → K}
    {data : AdvantageData K U bsz responseLength} {batchKeys : Fin bsz → String} {norm : Bool}
    {out : (Fin bsz → Fin responseLength → K) × (Fin bsz → Fin responseLength → K)}
    (h : computeAdvantageForMultiTrajectories sqrt data batchKeys norm = .ok out) :
    0 < responseLength := by
  by_contra hzero
  obtain ⟨_, -, h⟩ := bind_eq_ok.mp h
  obtain ⟨_, -, h⟩ := bind_eq_ok.mp h
  obtain ⟨_, -, h⟩ := bind_eq_ok.mp h
  obtain ⟨_, hargmax, -⟩ := bind_eq_ok.mp h
  unfold argmax at hargmax
  rw [dif_neg hzero] at hargmax
  cases hargmax

/-! ## Other orders, other rows -/

/-- The rows of a batch have a place in another one, whose other rows have other uids. -/
structure Embeds {bsz' : Nat} (place : Fin bsz ↪ Fin bsz') (keys : Fin bsz → RowKey)
    (data : AdvantageData K U bsz responseLength) (keys' : Fin bsz' → RowKey)
    (data' : AdvantageData K U bsz' responseLength) : Prop where
  key : ∀ i, keys' (place i) = keys i
  uid : ∀ i, data'.uid (place i) = data.uid i
  rewards : ∀ i, data'.tokenLevelRewards (place i) = data.tokenLevelRewards i
  mask : ∀ i, data'.responseMask (place i) = data.responseMask i
  otherKey : ∀ j, (∀ i, place i ≠ j) → ∀ i, (keys' j).uid ≠ (keys i).uid
  otherUid : ∀ j, (∀ i, place i ≠ j) → ∀ i, data'.uid j ≠ data.uid i

section Embeds

variable {bsz' : Nat} {place : Fin bsz ↪ Fin bsz'} {keys : Fin bsz → RowKey}
  {data : AdvantageData K U bsz responseLength} {keys' : Fin bsz' → RowKey}
  {data' : AdvantageData K U bsz' responseLength}

omit [Field K] in
theorem embeds_permute (keys : Fin bsz → RowKey) (data : AdvantageData K U bsz responseLength)
    (order : Equiv.Perm (Fin bsz)) :
    Embeds order.toEmbedding (fun i => keys (order i)) (data.permute order) keys data where
  key := fun _ => rfl
  uid := fun _ => rfl
  rewards := fun _ => rfl
  mask := fun _ => rfl
  otherKey := fun j hj => absurd (order.apply_symm_apply j) (hj (order.symm j))
  otherUid := fun j hj => absurd (order.apply_symm_apply j) (hj (order.symm j))

omit [Field K] in
theorem Embeds.isFinal_iff (h : Embeds place keys data keys' data') (r : Fin bsz) :
    IsFinal keys r ↔ IsFinal keys' (place r) := by
  constructor
  · intro hr j hj
    by_cases hplace : ∃ i, place i = j
    · obtain ⟨i, rfl⟩ := hplace
      rw [h.key, h.key] at hj ⊢
      exact hr i hj
    · rw [h.key] at hj
      exact absurd hj.1 (h.otherKey j (fun i hi => hplace ⟨i, hi⟩) r)
  · intro hr j hj
    have hle := hr (place j)
    rw [h.key, h.key] at hle
    exact hle hj

omit [Field K] in
theorem Embeds.finalGroup_eq [DecidableEq U] (h : Embeds place keys data keys' data')
    (r : Fin bsz) :
    finalGroup keys' data'.uid (place r) = (finalGroup keys data.uid r).map place := by
  ext j
  simp only [finalGroup, Finset.mem_filter, Finset.mem_univ, true_and, Finset.mem_map, h.uid]
  constructor
  · rintro ⟨hj, huid⟩
    by_cases hplace : ∃ i, place i = j
    · obtain ⟨i, rfl⟩ := hplace
      exact ⟨i, ⟨(h.isFinal_iff i).mpr hj, (h.uid i).symm.trans huid⟩, rfl⟩
    · exact absurd huid (h.otherUid j (fun i hi => hplace ⟨i, hi⟩) r)
  · rintro ⟨i, ⟨hi, huid⟩, rfl⟩
    exact ⟨(h.isFinal_iff i).mp hi, (h.uid i).trans huid⟩

section

variable [DecidableEq U] (h : Embeds place keys data keys' data') (sqrt : K → K) (norm : Bool)
  (r : Fin bsz)
include h sqrt norm r

theorem Embeds.finalScore_eq :
    finalScore sqrt keys' data' norm (place r) = finalScore sqrt keys data norm r := by
  have hscores : ∀ i, outcomeScores data'.tokenLevelRewards (place i) =
      outcomeScores data.tokenLevelRewards i := by simp [outcomeScores, h.rewards]
  unfold finalScore groupScore
  rw [h.finalGroup_eq, Finset.card_map, sampleMean_map, sampleVariance_map]
  simp only [hscores]

theorem Embeds.sessionScore_eq :
    sessionScore sqrt keys' data' norm (place r) = sessionScore sqrt keys data norm r := by
  unfold sessionScore
  rw [h.mask, h.finalScore_eq]

end

/-- The other rows of a batch change nothing for the rows it has been given. -/
theorem Embeds.advantages_eq [DecidableEq U] [ToString U]
    (h : Embeds place keys data keys' data') (hkeys' : Injective keys') (sqrt : K → K)
    (norm : Bool) {advantages returns : Fin bsz → Fin responseLength → K}
    (hresult : computeAdvantageForMultiTrajectories sqrt data (fun i => (keys i).format) norm =
      .ok (advantages, returns)) :
    ∃ advantages', computeAdvantageForMultiTrajectories sqrt data' (fun i => (keys' i).format)
        norm = .ok (advantages', advantages') ∧ ∀ i, advantages' (place i) = advantages i := by
  have hkeys : Injective keys := by
    intro i j hij
    rw [← h.key, ← h.key] at hij
    exact place.injective (hkeys' hij)
  have hpos : 0 < responseLength := responseLength_pos hresult
  obtain ⟨last, hlast, heq⟩ :=
    computeAdvantageForMultiTrajectories_of_pos sqrt hkeys data norm hpos
  obtain ⟨last', hlast', heq'⟩ :=
    computeAdvantageForMultiTrajectories_of_pos sqrt hkeys' data' norm hpos
  refine ⟨_, heq', fun i => ?_⟩
  obtain ⟨rfl, -⟩ := Prod.mk.inj (Except.ok.inj (heq.symm.trans hresult))
  have hplace : last' (place i) = place (last i) := by
    obtain ⟨hfinal, hsame⟩ := hlast' (place i)
    refine hfinal.unique hkeys' ((h.isFinal_iff _).mp (hlast i).1) ?_
    rw [h.key] at hsame ⊢
    exact ⟨hsame.1.trans (hlast i).2.1.symm, hsame.2.trans (hlast i).2.2.symm⟩
  funext t
  unfold maskScores maskTensor
  dsimp only
  rw [hplace, h.sessionScore_eq, h.mask]

end Embeds

omit [Field K] in
theorem isFinal_permute {keys : Fin bsz → RowKey} (order : Equiv.Perm (Fin bsz)) (r : Fin bsz) :
    IsFinal (fun i => keys (order i)) r ↔ IsFinal keys (order r) := by
  constructor
  · intro h j hj
    obtain ⟨i, rfl⟩ := order.surjective j
    exact h i hj
  · exact fun h j hj => h (order j) hj

theorem finalScore_permute [DecidableEq U] (sqrt : K → K) (keys : Fin bsz → RowKey)
    (data : AdvantageData K U bsz responseLength) (norm : Bool) (order : Equiv.Perm (Fin bsz))
    (r : Fin bsz) :
    finalScore sqrt (fun i => keys (order i)) (data.permute order) norm r =
      finalScore sqrt keys data norm (order r) :=
  ((embeds_permute keys data order).finalScore_eq sqrt norm r).symm

theorem finalScore_congr [DecidableEq U] (sqrt : K → K) {keys : Fin bsz → RowKey}
    (data : AdvantageData K U bsz responseLength) {rewards : Fin bsz → Fin responseLength → K}
    (h : ∀ r, IsFinal keys r → rewards r = data.tokenLevelRewards r) (norm : Bool) {r : Fin bsz}
    (hr : IsFinal keys r) :
    finalScore sqrt keys { data with tokenLevelRewards := rewards } norm r =
      finalScore sqrt keys data norm r := by
  have hscores : ∀ r, IsFinal keys r →
      outcomeScores rewards r = outcomeScores data.tokenLevelRewards r := by
    intro r hr
    unfold outcomeScores
    rw [h r hr]
  have hgroup : ∀ j ∈ finalGroup keys data.uid r,
      outcomeScores rewards j = outcomeScores data.tokenLevelRewards j := fun j hj =>
    hscores j (Finset.mem_filter.mp hj).2.1
  unfold finalScore groupScore
  rw [sampleMean_congr hgroup, sampleVariance_congr hgroup, hscores r hr]

/-- The keys of the rows are distinct, and the last row of every session has an unmasked token.
Every row gets the score of the last row of its session, normalised over the last rows with its
uid; the rows in another order get the same, and only the rewards of last rows matter. -/
theorem multiTrajectories_spec [DecidableEq U] [ToString U] (sqrt : K → K)
    {keys : Fin bsz → RowKey} (hkeys : Function.Injective keys)
    (data : AdvantageData K U bsz responseLength) (norm : Bool) (hrows : 0 < bsz)
    (hmask : ∀ r, IsFinal keys r → ∃ t, data.responseMask r t = true) :
    let batchKeys := fun i => (keys i).format
    let result := computeAdvantageForMultiTrajectories sqrt data batchKeys norm
    (∃ advantages, result = .ok (advantages, advantages) ∧
      ∀ i r, IsFinal keys r → (keys r).SameSession (keys i) → ∀ t,
        advantages i t =
          finalScore sqrt keys data norm r * if data.responseMask i t then 1 else 0) ∧
    (∀ order : Equiv.Perm (Fin bsz),
      computeAdvantageForMultiTrajectories sqrt (data.permute order)
          (fun i => batchKeys (order i)) norm =
        result.map fun out => (fun i => out.1 (order i), fun i => out.2 (order i))) ∧
    ∀ rewards, (∀ r, IsFinal keys r → rewards r = data.tokenLevelRewards r) →
      computeAdvantageForMultiTrajectories sqrt { data with tokenLevelRewards := rewards }
        batchKeys norm = result := by
  intro batchKeys result
  obtain ⟨last, hlast, hresult⟩ :=
    computeAdvantageForMultiTrajectories_eq sqrt hkeys data norm hrows hmask
  -- there is one last row in a session
  have hunique : ∀ i r, IsFinal keys r → (keys r).SameSession (keys i) → r = last i := by
    intro i r hr hsame
    obtain ⟨hfinal, hsame'⟩ := hlast i
    exact hr.unique hkeys hfinal ⟨hsame.1.trans hsame'.1.symm, hsame.2.trans hsame'.2.symm⟩
  refine ⟨⟨_, hresult, fun i r hr hsame t => ?_⟩, fun order => ?_, fun rewards hrewards => ?_⟩
  · rw [hunique i r hr hsame]
    rfl
  · obtain ⟨last', hlast', hresult'⟩ := computeAdvantageForMultiTrajectories_eq sqrt
      (hkeys.comp order.injective) (data.permute order) norm hrows
      fun r hr => hmask (order r) ((isFinal_permute order r).mp hr)
    have heq : ∀ i, order (last' i) = last (order i) := fun i =>
      hunique (order i) (order (last' i)) ((isFinal_permute order _).mp (hlast' i).1) (hlast' i).2
    have hscore : (fun i => finalScore sqrt (keys ∘ order) (data.permute order) norm (last' i)) =
        fun i => finalScore sqrt keys data norm (last (order i)) := by
      funext i
      exact (finalScore_permute sqrt keys data norm order (last' i)).trans
        (congrArg _ (heq i))
    refine Eq.trans hresult' ?_
    rw [show result = _ from hresult, hscore]
    rfl
  · obtain ⟨last', hlast', hresult'⟩ := computeAdvantageForMultiTrajectories_eq sqrt hkeys
      { data with tokenLevelRewards := rewards } norm hrows hmask
    have hscore : (fun i => finalScore sqrt keys { data with tokenLevelRewards := rewards } norm
        (last' i)) = fun i => finalScore sqrt keys data norm (last i) := by
      funext i
      rw [hunique i (last' i) (hlast' i).1 (hlast' i).2]
      exact finalScore_congr sqrt data hrewards norm (hlast i).1
    rw [hresult', hscore]
    exact hresult.symm

end Spec

/-- Two sessions of a prompt whose uid has an underscore; the first has two outputs. -/
def twoSessions : Fin 3 → RowKey :=
  ![⟨"prompt_a", 0, 1⟩, ⟨"prompt_a", 1, 0⟩, ⟨"prompt_a", 0, 0⟩]

def twoSessionsData : AdvantageData ℝ String 3 2 where
  tokenLevelRewards := fun i t => if t = 0 then 0 else ![3, 1, 100] i
  responseMask := fun i t => t = 0 ∨ i = 2
  uid := fun _ => "prompt_a"

/-- The first output of the first session gets the score of the second one. -/
theorem multiTrajectories_twoSessions :
    ∃ advantages, computeAdvantageForMultiTrajectories Real.sqrt twoSessionsData
        (fun i => (twoSessions i).format) false = .ok (advantages, advantages) ∧
      advantages 2 0 = 1 ∧ advantages 2 1 = 1 ∧ advantages 0 1 = 0 := by
  obtain ⟨advantages, hresult, h⟩ := (multiTrajectories_spec Real.sqrt
    (show Function.Injective twoSessions by decide) twoSessionsData false (by decide) (by decide)).1
  have hgroup : finalGroup twoSessions twoSessionsData.uid 0 = {0, 1} := by decide
  have hscore : finalScore Real.sqrt twoSessions twoSessionsData false 0 = 1 := by
    have hcard : ({0, 1} : Finset (Fin 3)).card = 2 := rfl
    unfold finalScore groupScore
    rw [hgroup]
    norm_num [normalise, sampleMean, outcomeScores, twoSessionsData]
  refine ⟨advantages, hresult, ?_, ?_, ?_⟩
  · rw [h 2 0 (by decide) (by decide) 0, hscore]
    norm_num [twoSessionsData]
  · rw [h 2 0 (by decide) (by decide) 1, hscore]
    norm_num [twoSessionsData]
  · rw [h 0 0 (by decide) (by decide) 1, if_neg (by decide), mul_zero]

end Verl.MultiTrajectories
