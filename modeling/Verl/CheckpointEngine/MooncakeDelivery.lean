import Verl.CheckpointEngine.MooncakeChain

/-! # What holds along the Mooncake chain

An agent offers a buffer from the time its bucket is sent to the time it has seen the magic word
there.  A buffer that is offered is in use by the next agent or begins with the magic word
(`LinkInv.free`); one in use begins with what it began with when it was sent (`LinkInv.offers`).

* `LinkInv`: between an agent and the next one.  `Worker.Inv`, `Trainer.Inv`: one agent.
* the steps of the owner (`LinkInv.congr_mem`, `wait`, `send`), and of the next agent. -/

namespace Verl.CheckpointEngine.Mooncake

open List

variable {bucketSize : Nat}

/-! ## Memory -/

/-- Outside of `[lo, hi)` nothing changed. -/
def SameOutside (mem mem' : Memory bucketSize) (lo hi : Nat) : Prop :=
  ∀ o k, o + k ≤ lo ∨ hi ≤ o → mem'.slice o k = mem.slice o k

/-- A buffer has not changed. -/
def SameBuffer (mem mem' : Memory bucketSize) (b : Bool) : Prop :=
  ∀ o k, o + k ≤ bucketSize →
    mem'.slice (start bucketSize b + o) k = mem.slice (start bucketSize b + o) k

variable {mem mem' : Memory bucketSize} {b : Bool}

theorem start_add_le (b : Bool) {k : Nat} (h : k ≤ bucketSize) :
    start bucketSize b + k ≤ 2 * bucketSize := by
  cases b with
  | false =>
    show 0 + k ≤ _
    omega
  | true =>
    show bucketSize + k ≤ _
    omega

theorem start_injective (hpos : 0 < bucketSize) {c : Bool}
    (h : start bucketSize b = start bucketSize c) : b = c := by
  cases b with
  | false =>
    cases c with
    | false => rfl
    | true =>
      have h : 0 = bucketSize := h
      omega
  | true =>
    cases c with
    | false =>
      have h : bucketSize = 0 := h
      omega
    | true => rfl

/-- What is written inside one buffer leaves the other one alone. -/
theorem SameOutside.other {c : Bool} {o k : Nat}
    (h : SameOutside mem mem' (start bucketSize b + o) (start bucketSize b + o + k))
    (hle : o + k ≤ bucketSize) (hne : c ≠ b) : SameBuffer mem mem' c := by
  intro o' k' hle'
  apply h
  cases b with
  | false =>
    cases c with
    | false => exact absurd rfl hne
    | true =>
      right
      show 0 + o + k ≤ bucketSize + o'
      omega
  | true =>
    cases c with
    | false =>
      left
      show 0 + o' + k' ≤ bucketSize + o
      omega
    | true => exact absurd rfl hne

theorem SameBuffer.head_eq (h : SameBuffer mem mem' b) : head mem' b = head mem b := by
  have hhead := h 0 (min 4 bucketSize) (by omega)
  exact hhead

/-- The tensors of a bucket at `ptr`. -/
def readTensors (mem : Memory bucketSize) (ptr : Nat) (metas : List TensorMeta) : List Named :=
  metas.map fun m =>
    { name := m.name
      dtype := m.dtype
      shape := m.shape
      bytes := mem.slice (ptr + m.offset) m.size }

theorem readTensors_congr {ptr ptr' len : Nat}
    {metas : List TensorMeta} (hfits : ∀ m ∈ metas, m.offset + m.size ≤ len)
    (h : ∀ o k, o + k ≤ len → mem'.slice (ptr' + o) k = mem.slice (ptr + o) k) :
    readTensors mem' ptr' metas = readTensors mem ptr metas := by
  apply map_congr_left
  intro m hm
  rw [h m.offset m.size (hfits m hm)]

/-! ## Buckets -/

/-- A bucket as an agent sent it. -/
structure Bucket where
  tensors : List Named
  isLast : Bool

def metasOf (bucketMeta : Dict TensorMeta) : List TensorMeta := bucketMeta.items.map Prod.snd

/-- The bucket an info tells of. -/
def Info.bucket (mem : Memory bucketSize) (info : Info) : Bucket where
  tensors := readTensors mem info.ptr (metasOf info.bucketMeta)
  isLast := info.isLast

/-- The tensors lie inside the bytes that are transferred, and these inside a buffer. -/
structure Info.Fits (bucketSize : Nat) (info : Info) : Prop where
  len : info.len ≤ bucketSize
  inside : ∀ m ∈ metasOf info.bucketMeta, m.offset + m.size ≤ info.len

/-! ## One worker -/

namespace Phase

/-- The info whose buffer the worker has not given back. -/
def taken : Phase → List Info
  | .waiting info => [info]
  | .reading info => [info]
  | .sending info => [info]
  | .yielding info _ => [info]
  | _ => []

/-- The info whose bucket the worker has not read. -/
def unread : Phase → List Info
  | .waiting info => [info]
  | .reading info => [info]
  | _ => []

/-- The last bucket is sent on. -/
def ended : Phase → Bool
  | .yielding info _ => info.isLast
  | .returned => true
  | _ => false

variable {p : Phase}

theorem eq_of_isReceiving (h : p.isReceiving = true) : p = .receiving := by
  cases p <;> first | rfl | cases h

theorem exists_of_isWaiting (h : p.isWaiting = true) : ∃ info, p = .waiting info := by
  cases p with
  | waiting info => exact ⟨info, rfl⟩
  | _ => cases h

theorem exists_of_isReading (h : p.isReading = true) : ∃ info, p = .reading info := by
  cases p with
  | reading info => exact ⟨info, rfl⟩
  | _ => cases h

theorem exists_of_isSending (h : p.isSending = true) : ∃ info, p = .sending info := by
  cases p with
  | sending info => exact ⟨info, rfl⟩
  | _ => cases h

theorem exists_of_canYield (h : p.canYield = true) :
    ∃ info m rest, p = .yielding info (m :: rest) := by
  cases p with
  | yielding info rest =>
    cases rest with
    | nil => cases h
    | cons m rest => exact ⟨info, m, rest, rfl⟩
  | _ => cases h

theorem exists_of_hasYielded (h : p.hasYielded = true) : ∃ info, p = .yielding info [] := by
  cases p with
  | yielding info rest =>
    cases rest with
    | nil => exact ⟨info, rfl⟩
    | cons m rest => cases h
  | _ => cases h

end Phase

namespace Worker

/-- The bucket that was read and is not sent on. -/
def held (w : Worker) (mem : Memory bucketSize) : List Bucket :=
  match w.phase with
  | .sending info =>
    [⟨readTensors mem (start bucketSize w.current) (metasOf info.bucketMeta), info.isLast⟩]
  | _ => []

/-- The tensors of the current bucket that are still to be yielded. -/
def unyielded (w : Worker) (mem : Memory bucketSize) : List Named :=
  match w.phase with
  | .yielding _ rest => readTensors mem (start bucketSize w.current) rest
  | _ => []

/-- The buffer belongs to the next worker. -/
def offered (w : Worker) (b : Bool) : Bool :=
  if b = w.current then
    match w.phase with
    | .reading _ => false
    | .sending _ => false
    | .yielding _ _ => true
    | _ => decide (2 ≤ w.idx)
  else decide (1 ≤ w.idx)

/-- A worker that has sent the buckets `log` on. -/
structure Inv (log : List Bucket) (mem : Memory bucketSize) (w : Worker) : Prop where
  error : w.error = none
  /-- No tensor is lost, no tensor comes twice, and their order is kept. -/
  tensors : log.flatMap Bucket.tensors = w.yielded ++ w.unyielded mem
  ended : log.any Bucket.isLast = w.phase.ended
  fits : ∀ info rest, w.phase = .yielding info rest → ∀ m ∈ rest, m.offset + m.size ≤ bucketSize
  waiting : ∀ info, w.phase = .waiting info → 2 ≤ w.idx

variable {w : Worker} {log : List Bucket} {mem mem' : Memory bucketSize}

theorem Inv.congr (h : w.Inv log mem) {w' : Worker} (herror : w'.error = w.error)
    (hyielded : w'.yielded = w.yielded) (hunyielded : w'.unyielded mem' = w.unyielded mem)
    (hended : w'.phase.ended = w.phase.ended)
    (hfits : ∀ info rest, w'.phase = .yielding info rest → ∀ m ∈ rest, m.offset + m.size ≤ bucketSize)
    (hwaiting : ∀ info, w'.phase = .waiting info → 2 ≤ w'.idx) : w'.Inv log mem' where
  error := herror.trans h.error
  tensors := by
    rw [h.tensors, hyielded, hunyielded]
  ended := h.ended.trans hended.symm
  fits := hfits
  waiting := hwaiting

theorem current_succ (w : Worker) (phase : Phase) :
    Worker.current { w with idx := w.idx + 1, phase := phase } = !w.current := by
  unfold current
  rcases Nat.mod_two_eq_zero_or_one w.idx with h | h
  · grind
  · grind

theorem offered_swap {info : Info} (hphase : w.phase = .yielding info []) (b : Bool) :
    (w.swap info).offered b = w.offered b := by
  have hcurrent : (w.swap info).current = !w.current := w.current_succ _
  have hmatch : ∀ p : Phase, p = .returned ∨ p = .receiving →
      (match p with
        | .reading _ => false
        | .sending _ => false
        | .yielding _ _ => true
        | _ => decide (2 ≤ w.idx + 1)) = decide (2 ≤ w.idx + 1) := by
    rintro p (rfl | rfl) <;> rfl
  have hphase' : (w.swap info).phase = .returned ∨ (w.swap info).phase = .receiving := by
    simp [swap]
  unfold offered
  rw [hcurrent, hphase]
  by_cases hb : b = w.current
  · have hne : b ≠ !w.current := by grind
    rw [if_neg hne, if_pos hb]
    exact decide_eq_true (Nat.le_add_left 1 w.idx)
  · have heq : b = !w.current := by
      cases b <;> cases hc : w.current <;> simp_all
    rw [if_pos heq, if_neg hb]
    refine (hmatch _ hphase').trans ?_
    rw [decide_eq_decide]
    omega

/-- The buffer that is read into, or whose bucket is not sent on, is the worker's own. -/
theorem offered_current_of_reading {info : Info} (hphase : w.phase = .reading info) :
    w.offered w.current = false := by
  unfold offered
  rw [if_pos rfl, hphase]

theorem offered_current_of_sending {info : Info} (hphase : w.phase = .sending info) :
    w.offered w.current = false := by
  unfold offered
  rw [if_pos rfl, hphase]

end Worker

/-! ## From an agent to the next one -/

/-- What holds between an agent with memory `mem` that has sent the buckets `up`, and the next one,
with memory `wmem`, which has sent the buckets `down`. -/
structure LinkInv (up down : List Bucket) (mem wmem : Memory bucketSize)
    (sent : Bool → List UInt8) (offered : Bool → Bool) (infos : List Info) (w : Worker) :
    Prop where
  stream : down ++ w.held wmem ++ (w.phase.unread ++ infos).map (Info.bucket mem) = up
  offers : ∀ info ∈ w.phase.taken ++ infos,
    ∃ b, info.ptr = start bucketSize b ∧ offered b = true ∧ head mem b = sent b
  free : ∀ b, offered b = true →
    (∃ info ∈ w.phase.taken ++ infos, info.ptr = start bucketSize b) ∨ head mem b = magic
  nodup : ((w.phase.taken ++ infos).map Info.ptr).Nodup
  fits : ∀ info ∈ w.phase.taken ++ infos, info.Fits bucketSize

namespace LinkInv

variable {up down : List Bucket} {mem mem' wmem wmem' : Memory bucketSize}
  {sent sent' : Bool → List UInt8} {offered offered' : Bool → Bool} {infos infos' : List Info}
  {w w' : Worker}

variable {info : Info} {b : Bool}

theorem mem_taken_of_unread {p : Phase} {infos : List Info}
    (h : info ∈ p.unread ++ infos) : info ∈ p.taken ++ infos := by
  rcases mem_append.1 h with h | h
  · apply mem_append_left
    cases p with
    | waiting => exact h
    | reading => exact h
    | receiving => cases h
    | sending => cases h
    | yielding => cases h
    | returned => cases h
  · exact mem_append_right _ h

theorem bucket_congr (h : LinkInv up down mem wmem sent offered infos w)
    (hsame : ∀ b, offered b = true → SameBuffer mem mem' b)
    (hinfo : info ∈ w.phase.taken ++ infos) : info.bucket mem' = info.bucket mem := by
  obtain ⟨b, hptr, hb, -⟩ := h.offers info hinfo
  unfold Info.bucket
  have htensors : readTensors mem' info.ptr (metasOf info.bucketMeta) =
      readTensors mem info.ptr (metasOf info.bucketMeta) := by
    refine readTensors_congr (h.fits info hinfo).inside fun o k hle => ?_
    rw [hptr]
    have hlen := (h.fits info hinfo).len
    exact hsame b hb o k (by omega)
  rw [htensors]

/-! The steps of the owner. -/

section

variable (h : LinkInv up down mem wmem sent offered infos w)
include h

theorem congr_mem (hsame : ∀ b, offered b = true → SameBuffer mem mem' b) :
    LinkInv up down mem' wmem sent offered infos w where
  stream := by
    have hmap : (w.phase.unread ++ infos).map (Info.bucket mem') =
        (w.phase.unread ++ infos).map (Info.bucket mem) :=
      map_congr_left fun info hinfo => h.bucket_congr hsame (mem_taken_of_unread hinfo)
    rw [hmap]
    exact h.stream
  offers := by
    intro info hinfo
    obtain ⟨b, hptr, hb, hhead⟩ := h.offers info hinfo
    exact ⟨b, hptr, hb, (hsame b hb).head_eq.trans hhead⟩
  free := by
    intro b hb
    rcases h.free b hb with hinfo | hhead
    · exact .inl hinfo
    · exact .inr ((hsame b hb).head_eq.trans hhead)
  nodup := h.nodup
  fits := h.fits

theorem congr_offered (ho : ∀ b, offered' b = offered b) : LinkInv up down mem wmem sent offered' infos w := by
  obtain rfl : offered' = offered := funext ho
  exact h

/-- The owner has seen the magic word, and it is not the data's own. -/
theorem wait (hmagic : head mem b = magic) (hsent : sent b ≠ magic) (hb : offered' b = false)
    (hother : ∀ c ≠ b, offered' c = offered c) :
    LinkInv up down mem wmem sent offered' infos w :=
  { h with
    offers := by
      intro info hinfo
      obtain ⟨c, hptr, hc, hhead⟩ := h.offers info hinfo
      have hne : c ≠ b := by grind
      exact ⟨c, hptr, by rw [hother c hne]; exact hc, hhead⟩
    free := by
      intro c hc
      have hne : c ≠ b := by grind
      exact h.free c (by rw [← hother c hne]; exact hc) }

theorem send (hpos : 0 < bucketSize)
    (hptr : info.ptr = start bucketSize b) (hfits : info.Fits bucketSize)
    (hown : offered b = false) (hb : offered' b = true) (hother : ∀ c ≠ b, offered' c = offered c)
    (hsent : sent' b = head mem b) (hsent' : ∀ c ≠ b, sent' c = sent c) :
    LinkInv (up ++ [info.bucket mem]) down mem wmem sent' offered' (infos ++ [info]) w where
  stream := by
    rw [← append_assoc w.phase.unread, map_append, ← append_assoc, h.stream]
    rfl
  offers := by
    intro info' hinfo'
    rw [← append_assoc] at hinfo'
    rcases mem_append.1 hinfo' with hinfo' | hinfo'
    · obtain ⟨c, hptr', hc, hhead⟩ := h.offers info' hinfo'
      have hne : c ≠ b := by grind
      exact ⟨c, hptr', by rw [hother c hne]; exact hc, by rw [hsent' c hne]; exact hhead⟩
    · grind
  free := by
    intro c hc
    by_cases hcb : c = b
    · grind
    · rcases h.free c (by rw [← hother c hcb]; exact hc) with ⟨info', hinfo', hptr'⟩ | hhead
      · grind
      · exact .inr hhead
  nodup := by
    rw [← append_assoc, map_append]
    refine nodup_append.2 ⟨h.nodup, nodup_singleton _, ?_⟩
    intro ptr hptr' ptr' hmem heq
    cases mem_singleton.1 hmem
    obtain ⟨info', hinfo', hinfoPtr⟩ := mem_map.1 hptr'
    obtain ⟨c, hc, hoffered, -⟩ := h.offers info' hinfo'
    -- the buffers in use are offered, and `b` was not
    have hcb : c = b := start_injective hpos (by rw [← hc, hinfoPtr, heq, hptr])
    rw [hcb, hown] at hoffered
    cases hoffered
  fits := by
    intro info' hinfo'
    rw [← append_assoc] at hinfo'
    rcases mem_append.1 hinfo' with hinfo' | hinfo'
    · exact h.fits info' hinfo'
    · grind

end

/-! The steps of the next agent. -/

section

variable (h : LinkInv up down mem wmem sent offered infos w)
include h

/-- The same buckets are to be given back. -/
theorem of_taken {down' : List Bucket} (htaken : w'.phase.taken ++ infos' = w.phase.taken ++ infos)
    (hstream : down' ++ w'.held wmem' ++ (w'.phase.unread ++ infos').map (Info.bucket mem) = up) :
    LinkInv up down' mem wmem' sent offered infos' w' where
  stream := hstream
  offers := by
    rw [htaken]
    exact h.offers
  free := by
    rw [htaken]
    exact h.free
  nodup := by
    rw [htaken]
    exact h.nodup
  fits := by
    rw [htaken]
    exact h.fits

/-- The same buckets are held, to be read and to be given back. -/
theorem congr_worker (hheld : w'.held wmem' = w.held wmem)
    (hunread : w'.phase.unread ++ infos' = w.phase.unread ++ infos)
    (htaken : w'.phase.taken ++ infos' = w.phase.taken ++ infos) :
    LinkInv up down mem wmem' sent offered infos' w' :=
  h.of_taken htaken (by
    rw [hheld, hunread]
    exact h.stream)

theorem read (hphase : w.phase = .reading info)
    (hread : wmem'.slice (start bucketSize w.current) info.len = mem.slice info.ptr info.len) :
    LinkInv up down mem wmem' sent offered infos { w with phase := .sending info } := by
  have hfits := h.fits info (by rw [hphase]; exact mem_append_left _ mem_cons_self)
  have hstream := h.stream
  refine h.of_taken (by rw [hphase]; rfl) ?_
  unfold Worker.held at hstream ⊢
  rw [hphase] at hstream
  have htensors : readTensors wmem' (start bucketSize w.current) (metasOf info.bucketMeta) =
      readTensors mem info.ptr (metasOf info.bucketMeta) := by
    refine readTensors_congr hfits.inside fun o k hle => ?_
    calc wmem'.slice (start bucketSize w.current + o) k
        = getSlice (wmem'.slice (start bucketSize w.current) info.len) o k :=
          (getSlice_getSlice wmem'.toList hle).symm
      _ = getSlice (mem.slice info.ptr info.len) o k := by rw [hread]
      _ = mem.slice (info.ptr + o) k := getSlice_getSlice mem.toList hle
  refine Eq.trans ?_ hstream
  show down ++ [⟨readTensors wmem' (start bucketSize w.current) (metasOf info.bucketMeta),
    info.isLast⟩] ++ infos.map (Info.bucket mem) =
      down ++ [] ++ (info.bucket mem :: infos.map (Info.bucket mem))
  rw [htensors, append_nil, append_assoc]
  rfl

theorem sendInfo (hphase : w.phase = .sending info) (rest : List TensorMeta) :
    LinkInv up (down ++ [⟨readTensors wmem (start bucketSize w.current)
        (metasOf info.bucketMeta), info.isLast⟩]) mem wmem sent offered infos
      { w with phase := .yielding info rest } := by
  have hstream := h.stream
  refine h.of_taken (by rw [hphase]; rfl) ?_
  unfold Worker.held at hstream ⊢
  rw [hphase] at hstream
  refine Eq.trans ?_ hstream
  rw [append_nil]
  rfl

theorem writeMagic (hpos : 0 < bucketSize) (hphase : w.phase = .yielding info [])
    (hptr : info.ptr = start bucketSize b) (hmagic : head mem' b = magic)
    (hother : ∀ c ≠ b, SameBuffer mem mem' c) :
    LinkInv up down mem' wmem sent offered infos (w.swap info) := by
  have hheld : w.held wmem = [] ∧ (w.swap info).held wmem = [] := by
    unfold Worker.held Worker.swap
    rw [hphase]
    refine ⟨rfl, ?_⟩
    dsimp only
    cases info.isLast <;> rfl
  have htaken : (w.swap info).phase.taken = [] ∧ (w.swap info).phase.unread = [] := by
    unfold Worker.swap
    cases info.isLast <;> exact ⟨rfl, rfl⟩
  have hnodup := h.nodup
  rw [hphase] at hnodup
  -- the infos that are left tell of the other buffer
  have hrest : ∀ info' ∈ infos, ∃ c, info'.ptr = start bucketSize c ∧ offered c = true ∧
      head mem c = sent c ∧ c ≠ b := by
    intro info' hinfo'
    obtain ⟨c, hptr', hc, hhead⟩ := h.offers info' (mem_append_right _ hinfo')
    refine ⟨c, hptr', hc, hhead, ?_⟩
    rintro rfl
    refine (nodup_cons.1 hnodup).1 ?_
    rw [hptr, ← hptr']
    exact mem_map_of_mem hinfo'
  constructor
  case stream =>
    have hstream := h.stream
    rw [hheld.1, hphase] at hstream
    rw [hheld.2, htaken.2]
    refine Eq.trans ?_ hstream
    have hmap : infos.map (Info.bucket mem') = infos.map (Info.bucket mem) := by
      apply map_congr_left
      intro info' hinfo'
      obtain ⟨c, hptr', -, -, hne⟩ := hrest info' hinfo'
      have hfits := h.fits info' (mem_append_right _ hinfo')
      unfold Info.bucket
      have htensors : readTensors mem' info'.ptr (metasOf info'.bucketMeta) =
          readTensors mem info'.ptr (metasOf info'.bucketMeta) := by
        refine readTensors_congr hfits.inside fun o k hle => ?_
        rw [hptr']
        have hlen := hfits.len
        exact hother c hne o k (by omega)
      rw [htensors]
    show _ ++ infos.map (Info.bucket mem') = _ ++ infos.map (Info.bucket mem)
    rw [hmap]
  case offers =>
    rw [htaken.1]
    intro info' hinfo'
    obtain ⟨c, hptr', hc, hhead, hne⟩ := hrest info' hinfo'
    exact ⟨c, hptr', hc, (hother c hne).head_eq.trans hhead⟩
  case free =>
    rw [htaken.1]
    intro c hc
    by_cases hcb : c = b
    · grind
    · rcases h.free c hc with ⟨info', hinfo', hptr'⟩ | hhead
      · rw [hphase] at hinfo'
        rcases mem_append.1 hinfo' with hinfo' | hinfo'
        · cases mem_singleton.1 hinfo'
          exact absurd (start_injective hpos (hptr'.symm.trans hptr)) hcb
        · exact .inl ⟨info', hinfo', hptr'⟩
      · exact .inr ((hother c hcb).head_eq.trans hhead)
  case nodup =>
    rw [htaken.1]
    exact (nodup_cons.1 hnodup).2
  case fits =>
    rw [htaken.1]
    exact fun info' hinfo' => h.fits info' (mem_append_right _ hinfo')

end

end LinkInv

end Verl.CheckpointEngine.Mooncake
