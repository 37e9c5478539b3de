import Verl.CheckpointEngine.NixlDelivery

/-! # The chain in every reachable state

* `State.InvWith`: the invariants of the trainer, of every worker and of every link, for the logs
  of the agents.
* `State.InvWith.setWorker`, `setLink`, `post`: what a step changes, and what it leaves alone.
* `State.Inv.step`: every step keeps the invariants. -/

namespace Verl.CheckpointEngine.Nixl

open List Function Option

variable {bucketSize n : Nat}

/-- The buckets that each agent has posted. -/
abbrev Logs (bucketSize n : Nat) := Fin (n + 1) → List (Message bucketSize)

namespace State

structure InvWith (chunks : List Chunk) (log : Logs bucketSize n) (s : State bucketSize n) :
    Prop where
  trainer : s.trainer.toSender.Inv chunks
  posted : (log 0).flatMap Message.chunks ++ s.trainer.unposted ++ s.trainer.todo = chunks
  flags : ∃ k, (log 0).map (fun m => m.metadata.isLast) =
    List.replicate k false ++ s.trainer.endFlag
  packed : ∀ m ∈ log 0, ∃ used ≤ bucketSize, Packed m.metadata.bucketMeta used
  worker : ∀ i, (s.workers i).Inv (log i.succ)
  link : ∀ i : Fin n, LinkInv (log i.castSucc) (log i.succ) (s.bufs i.castSucc) (s.links i)
    (s.workers i)
  /-- The other buffer is packed while one is read. -/
  trainerOp : ∀ op, s.readableOp 0 = some op → s.trainer.lastPosted = false →
    op.localDescs = !s.trainer.sendBuf
  /-- What is read is the buffer whose tensors are yielded. -/
  workerOp : ∀ i : Fin n, ∀ op, s.readableOp i.succ = some op →
    op.localDescs = (s.workers i).sendBuf ∧ (s.workers i).metadata = none

def Inv (chunks : List Chunk) (s : State bucketSize n) : Prop := ∃ log, s.InvWith chunks log

variable {chunks : List Chunk} {log : Logs bucketSize n} {s : State bucketSize n}

/-- What an agent has posted, the agents before it have posted first. -/
theorem InvWith.log_prefix (h : s.InvWith chunks log) (rank : Fin (n + 1)) :
    log rank <+: log 0 := by
  induction rank using Fin.induction with
  | zero => exact prefix_refl _
  | succ i ih =>
    refine List.IsPrefix.trans ?_ ih
    rw [← (h.link i).stream, append_assoc]
    exact prefix_append _ _

theorem InvWith.packed_held (h : s.InvWith chunks log) (i : Fin n) {m : Message bucketSize}
    (hm : m ∈ (s.workers i).held) : ∃ used ≤ bucketSize, Packed m.metadata.bucketMeta used := by
  apply h.packed m
  apply (h.log_prefix i.castSucc).subset
  rw [← (h.link i).stream]
  exact mem_append_left _ (mem_append_right _ hm)

theorem inv_initial (hn : 0 < n) (weights : List Weight) :
    (initial bucketSize n weights).Inv (splitWeightChunks bucketSize weights) :=
  ⟨fun _ => [],
    { trainer :=
        { error := if_neg (Nat.ne_of_gt hn)
          bucket := Packed.empty
          offset_le := Nat.zero_le _
          flushed := fun h => by cases h
          todo := suffix_refl _
          lastPosted := fun h => by cases h
          opBucket := fun _ h => by cases h
          opPacked := fun _ h => by cases h }
      posted := rfl
      flags := ⟨0, rfl⟩
      packed := fun _ h => by cases h
      worker := fun i =>
        { error := rfl
          localDescs := fun op hop => by cases hop; rfl
          message := fun op hop _ => by cases hop; rfl
          metadata := fun m hm => by cases hm
          yielding := fun m hm => by cases hm
          chunks := rfl
          ended := rfl }
      link := fun i =>
        { stream := rfl
          keys := rfl
          descs := fun m hm => by cases hm }
      trainerOp := fun op hop => by
        obtain ⟨i, -, hi⟩ := bind_eq_some_iff.1 hop
        cases hi
      workerOp := fun _ op hop => by
        obtain ⟨i, -, hi⟩ := bind_eq_some_iff.1 hop
        cases hi }⟩

/-! ## One worker and the link to it -/

section

variable (h : s.InvWith chunks log) (i : Fin n) {w : Worker bucketSize} {l : Link}
  (hworker : w.Inv (log i.succ))
  (hlink : LinkInv (log i.castSucc) (log i.succ) (s.bufs i.castSucc) l w)
  (hop : l.readableOp = (s.links i).readableOp)
include h i hworker hlink hop

/-- A worker that leaves alone what the next one reads. -/
theorem InvWith.setWorker (hout : ∀ op, s.readableOp i.succ = some op →
      w.bufs op.localDescs = (s.workers i).bufs op.localDescs ∧ op.localDescs = w.sendBuf ∧
        w.metadata = none) :
    (s.setWorker i w l).InvWith chunks log := by
  have hops : ∀ rank, (s.setWorker i w l).readableOp rank = s.readableOp rank := by
    refine readableOp_congr fun j => ?_
    show (update s.links i l j).readableOp = _
    by_cases hij : j = i
    · grind
    · rw [update_of_ne hij]
  have hbufs : ∀ j : Fin n, LinkInv (log j.castSucc) (log j.succ) (s.bufs j.castSucc) (s.links j)
      (s.workers j) → LinkInv (log j.castSucc) (log j.succ)
        ((s.setWorker i w l).bufs j.castSucc) (s.links j) (s.workers j) := by
    intro j hj
    refine hj.congr_bufs fun op hjop => ?_
    by_cases hrank : j.castSucc = i.succ
    · -- the buffer that is read is not written to
      rw [← s.readableOp_castSucc, hrank] at hjop
      rw [hrank]
      show (update s.workers i w i).bufs _ = _
      rw [update_self]
      exact (hout op hjop).1
    · rw [bufs_of_ne s (s.setWorker i w l) rfl rfl hrank]
  exact
    { h with
      worker := fun j => by
        show Worker.Inv _ (update s.workers i w j)
        by_cases hij : j = i
        · grind
        · rw [update_of_ne hij]
          exact h.worker j
      link := fun j => by
        show LinkInv _ _ _ (update s.links i l j) (update s.workers i w j)
        by_cases hij : j = i
        · subst hij
          rw [update_self, update_self]
          rw [bufs_of_ne s (s.setWorker j w l) rfl rfl (castSucc_ne_succ j)]
          exact hlink
        · rw [update_of_ne hij, update_of_ne hij]
          exact hbufs j (h.link j)
      trainerOp := fun op hop => h.trainerOp op (by rw [← hops]; exact hop)
      workerOp := fun j op hop' => by
        rw [hops] at hop'
        show op.localDescs = (update s.workers i w j).sendBuf ∧
          (update s.workers i w j).metadata = none
        by_cases hij : j = i
        · grind
        · rw [update_of_ne hij]
          exact h.workerOp j op hop' }

theorem InvWith.setWorker_of_bufs (hbufs : w.bufs = (s.workers i).bufs)
    (hsend : w.sendBuf = (s.workers i).sendBuf) (hmeta : w.metadata = (s.workers i).metadata) :
    (s.setWorker i w l).InvWith chunks log := by
  refine h.setWorker i hworker hlink hop fun op hout => ?_
  obtain ⟨hdescs, hnone⟩ := h.workerOp i op hout
  exact ⟨by rw [hbufs], by rw [hsend]; exact hdescs, by rw [hmeta]; exact hnone⟩

end

/-! ## One link -/

/-- The owner of the link has waited for its operation. -/
theorem InvWith.setLink (h : s.InvWith chunks log) (i : Fin n) {l : Link}
    (hop : l.readableOp = none)
    (hlink : LinkInv (log i.castSucc) (log i.succ) (s.bufs i.castSucc) l (s.workers i)) :
    InvWith chunks log { s with links := update s.links i l } := by
  have hops : ∀ {rank op}, State.readableOp { s with links := update s.links i l } rank =
      some op → s.readableOp rank = some op := by
    intro rank op hrank
    by_cases heq : rank = i.castSucc
    · subst heq
      rw [readableOp_castSucc] at hrank
      have hrank : (update s.links i l i).readableOp = some op := hrank
      rw [update_self, hop] at hrank
      cases hrank
    · rw [← hrank]
      exact (readableOp_update rfl heq).symm
  exact
    { h with
      link := fun j => by
        show LinkInv _ _ (s.bufs j.castSucc) (update s.links i l j) (s.workers j)
        by_cases hij : j = i
        · grind
        · rw [update_of_ne hij]
          exact h.link j
      trainerOp := fun op hop => h.trainerOp op (hops hop)
      workerOp := fun j op hop => h.workerOp j op (hops hop) }

/-! ## A bucket is posted -/

/-- The agent of this rank posts a buffer; the links are as before, but for the one to the next
agent. -/
theorem InvWith.link_post (h : s.InvWith chunks log) (uuid : Fin (n + 1) → Nat → NotifyKey)
    (rank : Fin (n + 1)) (hop : s.readableOp rank = none) (sendDescs : Bool) (metadata : Metadata)
    (j : Fin n) :
    LinkInv (update log rank
        (log rank ++ [⟨metadata, s.bufs rank sendDescs⟩]) j.castSucc) (log j.succ)
      (s.bufs j.castSucc) (s.postLinks uuid rank sendDescs metadata j) (s.workers j) := by
  unfold postLinks
  cases hnext : nextLink rank with
  | none =>
    have hne : j.castSucc ≠ rank := by
      rintro rfl
      rw [nextLink_castSucc] at hnext
      cases hnext
    rw [update_of_ne hne]
    exact h.link j
  | some i =>
    obtain rfl := eq_castSucc_of_nextLink hnext
    show LinkInv _ _ _ (update s.links i _ j) _
    by_cases hij : j = i
    · subst hij
      rw [update_self, update_self]
      rw [readableOp_castSucc] at hop
      exact (h.link j).post hop _ _ _
    · have hne : j.castSucc ≠ i.castSucc := fun heq => hij (Fin.castSucc_injective n heq)
      rw [update_of_ne hij, update_of_ne hne]
      exact h.link j

/-- The operations after a post. -/
theorem readableOp_post (s s' : State bucketSize n) {uuid : Fin (n + 1) → Nat → NotifyKey}
    {rank : Fin (n + 1)} {sendDescs : Bool} {metadata : Metadata}
    (hlinks : s'.links = s.postLinks uuid rank sendDescs metadata) :
    (∀ op, s'.readableOp rank = some op → op.localDescs = sendDescs) ∧
      ∀ rank' ≠ rank, s'.readableOp rank' = s.readableOp rank' := by
  unfold postLinks at hlinks
  cases hnext : nextLink rank with
  | none =>
    rw [hnext] at hlinks
    have hsame : ∀ rank', s'.readableOp rank' = s.readableOp rank' :=
      readableOp_congr fun i => by rw [hlinks]
    refine ⟨fun op hop => ?_, fun rank' _ => hsame rank'⟩
    unfold readableOp at hop
    rw [hnext] at hop
    cases hop
  | some i =>
    rw [hnext] at hlinks
    obtain rfl := eq_castSucc_of_nextLink hnext
    refine ⟨fun op hop => ?_, fun rank' hne => readableOp_update hlinks hne⟩
    rw [readableOp_castSucc, hlinks] at hop
    have hop : (update s.links i _ i).readableOp = some op := hop
    rw [update_self] at hop
    cases hop
    rfl

/-! ## The steps -/

theorem InvWith.pack (hchunks : ChunkStream bucketSize chunks) (h : s.InvWith chunks log)
    (hfits : s.trainer.nextFits = some true) :
    InvWith chunks log { s with trainer := s.trainer.pack } := by
  obtain ⟨hinv, c, hpacks⟩ := h.trainer.pack hchunks hfits
  have hpack : s.trainer.pack.toSender = s.trainer.toSender.pack :=
    Trainer.toSender_pack hinv.error
  rw [← hpack] at hinv hpacks
  have htodo : s.trainer.todo = c :: s.trainer.pack.todo := hpacks.todo
  have hsend : s.trainer.pack.sendBuf = s.trainer.sendBuf := hpacks.sendBuf
  have hposted : s.trainer.pack.lastPosted = s.trainer.lastPosted := hpacks.lastPosted
  have hlast : s.trainer.lastPosted = false :=
    h.trainer.lastPosted_eq_false (by rw [hpacks.todo]; exact cons_ne_nil _ _)
  have hflag : s.trainer.pack.endFlag = s.trainer.endFlag := by
    unfold Trainer.endFlag
    rw [hposted]
  exact
    { h with
      trainer := hinv
      posted := by
        refine Eq.trans ?_ h.posted
        unfold Trainer.unposted
        rw [hposted, hlast, htodo, hpacks.packed]
        show _ ++ (_ ++ [c]) ++ _ = _ ++ _ ++ _
        simp only [append_assoc]
        rfl
      flags := by simpa [hflag] using h.flags
      link := fun j => by
        refine (h.link j).congr_bufs fun op hjop => ?_
        cases hrank : j.castSucc using Fin.cases with
        | zero =>
          rw [← s.readableOp_castSucc, hrank] at hjop
          rw [h.trainerOp op hjop hlast]
          exact hpacks.other
        | succ k => rfl
      trainerOp := fun op hop _ => by
        rw [hsend]
        exact h.trainerOp op hop hlast }

section

variable (h : s.InvWith chunks log)
include h

theorem InvWith.wait (hn : s.Notified 0) : s.wait.InvWith chunks log := by
  obtain ⟨i, hi, hn⟩ := hn
  obtain ⟨l, hl, hop, hlink⟩ := (h.link i).waitForComplete hn
  unfold State.wait
  rw [hi]
  dsimp only
  rw [hl]
  exact h.setLink i hop hlink

variable {i : Fin n} (uuid : Fin (n + 1) → Nat → NotifyKey)

theorem InvWith.waitReadable (hn : s.Notified i.succ) :
    (s.waitReadable i).InvWith chunks log := by
  obtain ⟨j, hj, hn⟩ := hn
  obtain ⟨l, hl, hop, hlink⟩ := (h.link j).waitForComplete hn
  unfold State.waitReadable
  rw [hj]
  dsimp only
  rw [hl]
  exact h.setLink j hop hlink

theorem InvWith.postTrainer (hop : s.readableOp 0 = none)
    (hlast : s.trainer.lastPosted = false) (uuid : Fin (n + 1) → Nat → NotifyKey) (isLast : Bool)
    {t : Trainer bucketSize} (ht : t.toSender.Inv chunks) (hbufs : t.bufs = s.trainer.bufs)
    (htodo : t.todo = s.trainer.todo) (hunposted : t.unposted = [])
    (hflag : t.endFlag = if isLast then [true] else [])
    (hdescs : t.lastPosted = false → s.trainer.sendBuf = !t.sendBuf) :
    Inv chunks { s with
      trainer := t
      links := s.postLinks uuid 0 s.trainer.sendBuf
        { bucketMeta := s.trainer.bucketMeta, isLast := isLast } } := by
  set metadata : Metadata := { bucketMeta := s.trainer.bucketMeta, isLast := isLast } with hmeta
  set s' : State bucketSize n := { s with
    trainer := t, links := s.postLinks uuid 0 s.trainer.sendBuf metadata } with hs'
  set m : Message bucketSize := ⟨metadata, s.trainer.bufs s.trainer.sendBuf⟩ with hm
  obtain ⟨hpostOp, hotherOp⟩ := s.readableOp_post s' rfl
  have hrank : ∀ rank, s'.bufs rank = s.bufs rank := by
    intro rank
    cases rank using Fin.cases with
    | zero => exact hbufs
    | succ i => rfl
  have hlog : ∀ i : Fin n, update log 0 (log 0 ++ [m]) i.succ = log i.succ :=
    fun i => update_of_ne (Fin.succ_ne_zero i) _ _
  refine ⟨update log 0 (log 0 ++ [m]), ?_⟩
  exact
    { trainer := ht
      posted := by
        have hposted := h.posted
        unfold Trainer.unposted at hposted
        rw [hlast] at hposted
        rw [update_self, hunposted, htodo, flatMap_append, append_nil,
          flatMap_singleton]
        exact hposted
      flags := by
        obtain ⟨k, hk⟩ := h.flags
        unfold Trainer.endFlag at hk
        have hk : (log 0).map (fun m => m.metadata.isLast) = replicate k false := by grind
        rw [update_self, map_append, hk, hflag]
        cases isLast with
        | true => exact ⟨k, rfl⟩
        | false => exact ⟨k + 1, by rw [replicate_succ']; exact (append_nil _).symm⟩
      packed := by
        intro m' hm'
        rcases mem_append.1 hm' with hm' | hm'
        · exact h.packed m' hm'
        · cases mem_singleton.1 hm'
          exact ⟨s.trainer.offset, h.trainer.offset_le, h.trainer.bucket⟩
      worker := fun i => by
        exact h.worker i
      link := fun j => by
        rw [hrank]
        exact h.link_post uuid 0 hop s.trainer.sendBuf metadata j
      trainerOp := fun op hop' hlast' => by grind
      workerOp := fun i op hop' => by
        rw [hotherOp i.succ (Fin.succ_ne_zero i)] at hop'
        exact h.workerOp i op hop' }

theorem InvWith.flush (hfits : s.trainer.nextFits = some false) (hop : s.readableOp 0 = none) :
    (s.flush uuid).Inv chunks := by
  have hlast : s.trainer.lastPosted = false := by
    refine h.trainer.lastPosted_eq_false fun hnil => ?_
    have hnil : s.trainer.todo = [] := hnil
    unfold Trainer.nextFits at hfits
    rw [hnil] at hfits
    cases hfits
  refine h.postTrainer hop hlast uuid false (Trainer.swap_inv h.trainer) rfl rfl ?_ ?_ ?_
  · show (if s.trainer.lastPosted then [] else []) = []
    rw [ite_self]
  · show (if s.trainer.lastPosted then [true] else []) = _
    rw [hlast]
  · exact fun _ => (Bool.not_not _).symm

theorem InvWith.last (hfits : s.trainer.nextFits = none) (hlast : s.trainer.lastPosted = false)
    (hop : s.readableOp 0 = none) : (s.last uuid).Inv chunks :=
  h.postTrainer hop hlast uuid true (Trainer.last_inv h.trainer hfits) rfl rfl rfl rfl
    (fun h => by cases h)

theorem InvWith.readMetadata (hawaits : (s.workers i).awaitsMessage = true)
    (hmessages : (s.links i).messages.isEmpty = false) :
    (s.readMetadata i).InvWith chunks log := by
  unfold State.readMetadata
  cases hm : (s.links i).messages with
  | nil =>
    rw [hm] at hmessages
    cases hmessages
  | cons message messages =>
    exact h.setWorker_of_bufs i ((h.worker i).readMetadata hawaits message)
      ((h.link i).readMetadata (h.worker i) hawaits hm) rfl rfl rfl rfl

theorem InvWith.beginRead (hbegin : (s.workers i).canBegin = true) :
    (s.onWorker i Worker.beginRead).InvWith chunks log := by
  rw [onWorker_eq_setWorker]
  exact h.setWorker_of_bufs i ((h.worker i).beginRead hbegin) ((h.link i).beginRead hbegin)
    rfl rfl rfl rfl

end

theorem finishRead_sendBuf (w : Worker bucketSize) (data : Buffer UInt8 bucketSize) :
    (w.finishRead data).sendBuf = w.sendBuf ∧ (w.finishRead data).metadata = w.metadata := by
  unfold Worker.finishRead
  cases w.readOp with
  | none => exact ⟨rfl, rfl⟩
  | some op => exact ⟨rfl, rfl⟩

section

variable (h : s.InvWith chunks log)
include h

theorem InvWith.finishRead {i : Fin n}
    (hflight : (s.workers i).inFlight.isSome = true) : (s.finishRead i).InvWith chunks log := by
  obtain ⟨message, hmessage⟩ := isSome_iff_exists.1 hflight
  unfold State.finishRead
  rw [hmessage]
  obtain ⟨hsend, hmeta⟩ := finishRead_sendBuf (s.workers i)
    (s.bufs i.castSucc message.remoteDescs)
  refine h.setWorker i ((h.worker i).finishRead hmessage _)
    ((h.link i).finishRead (h.worker i) hmessage) rfl fun op hop => ?_
  obtain ⟨hdescs, hnone⟩ := h.workerOp i op hop
  refine ⟨?_, by rw [hsend]; exact hdescs, by rw [hmeta]; exact hnone⟩
  rw [hdescs]
  exact (h.worker i).bufs_finishRead _

theorem InvWith.advance {i : Fin n} (hyielding : (s.workers i).yielding.isEmpty = true)
    (hop : s.readableOp i.succ = none) (hread : (s.workers i).hasRead = true) :
    (s.onWorker i Worker.advance).InvWith chunks log := by
  rw [onWorker_eq_setWorker]
  refine h.setWorker i ((h.worker i).advance hread (isEmpty_iff.1 hyielding))
    ((h.link i).advance (h.worker i) hread) rfl fun op hop' => ?_
  rw [hop] at hop'
  cases hop'

theorem InvWith.yield {i : Fin n} : (s.onWorker i Worker.yield).InvWith chunks log := by
  rw [onWorker_eq_setWorker]
  have hfields : ∀ w : Worker bucketSize,
      w.yield.bufs = w.bufs ∧ w.yield.sendBuf = w.sendBuf ∧ w.yield.metadata = w.metadata := by
    intro w
    unfold Worker.yield
    split
    · exact ⟨rfl, rfl, rfl⟩
    · split <;> exact ⟨rfl, rfl, rfl⟩
  obtain ⟨hbufs, hsend, hmeta⟩ := hfields (s.workers i)
  exact h.setWorker_of_bufs i (h.worker i).yield (h.link i).yield rfl hbufs hsend hmeta

theorem InvWith.publish (uuid : Fin (n + 1) → Nat → NotifyKey)
    {i : Fin n} (hsome : (s.workers i).metadata.isSome = true) :
    (s.publish uuid i).Inv chunks := by
  obtain ⟨metadata, hmeta⟩ := isSome_iff_exists.1 hsome
  set w := s.workers i with hw
  set m : Message bucketSize := ⟨metadata, w.bufs w.sendBuf⟩ with hm
  have hop : s.readableOp i.succ = none := by
    cases hop : s.readableOp i.succ with
    | none => rfl
    | some op =>
      rw [(h.workerOp i op hop).2] at hmeta
      cases hmeta
  have hheld : m ∈ w.held := by
    unfold Worker.held
    rw [hmeta]
    exact mem_append_left _ mem_cons_self
  obtain ⟨used, -, hpacked⟩ := h.packed_held i hheld
  have hpub : s.publish uuid i = { s.onWorker i fun w => w.publish metadata with
      links := s.postLinks uuid i.succ w.sendBuf metadata } := by
    unfold State.publish
    rw [hmeta]
  rw [hpub]
  set s' : State bucketSize n := { s.onWorker i fun w => w.publish metadata with
      links := s.postLinks uuid i.succ w.sendBuf metadata } with hs'
  obtain ⟨hpostOp, hotherOp⟩ := s.readableOp_post s' rfl
  have hself : s'.workers i = w.publish metadata := update_self ..
  have hother : ∀ j ≠ i, s'.workers j = s.workers j := fun j hij => update_of_ne hij _ _
  have hbufs : ∀ rank, s'.bufs rank = s.bufs rank := by
    intro rank
    by_cases hrank : rank = i.succ
    · rw [hrank, bufs_succ, hself]
      rfl
    · exact bufs_of_ne s s' rfl rfl hrank
  have hrank := castSucc_ne_succ i
  refine ⟨update log i.succ (log i.succ ++ [m]), ?_⟩
  have hzero : update log i.succ (log i.succ ++ [m]) 0 = log 0 :=
    update_of_ne (Fin.succ_ne_zero i).symm _ _
  have hlog : ∀ j ≠ i, update log i.succ (log i.succ ++ [m]) j.succ = log j.succ :=
    fun j hij => update_of_ne (fun heq => hij (Fin.succ_injective n heq)) _ _
  exact
    { trainer := h.trainer
      posted := by rw [hzero]; exact h.posted
      flags := by rw [hzero]; exact h.flags
      packed := by rw [hzero]; exact h.packed
      worker := fun j => by
        by_cases hij : j = i
        · subst hij
          rw [hself, update_self]
          exact (h.worker j).publish hmeta hpacked
        · rw [hother j hij, hlog j hij]
          exact h.worker j
      link := fun j => by
        have hpost := h.link_post uuid i.succ hop w.sendBuf metadata j
        rw [hbufs]
        by_cases hij : j = i
        · subst hij
          rw [hself, update_self, update_of_ne hrank]
          rw [update_of_ne hrank] at hpost
          exact hpost.publish (h.worker j) hmeta
        · rw [hother j hij, hlog j hij]
          exact hpost
      trainerOp := fun op hop' => by
        rw [hotherOp 0 (Fin.succ_ne_zero i).symm] at hop'
        exact h.trainerOp op hop'
      workerOp := fun j op hop' => by
        by_cases hij : j = i
        · subst hij
          rw [hself]
          exact ⟨hpostOp op hop', rfl⟩
        · rw [hotherOp j.succ fun heq => hij (Fin.succ_injective n heq)] at hop'
          rw [hother j hij]
          exact h.workerOp j op hop' }

end

theorem Inv.step {uuid : Fin (n + 1) → Nat → NotifyKey} (hchunks : ChunkStream bucketSize chunks)
    (h : s.Inv chunks) (a : Action n) (hguard : (relay uuid a).guard s) :
    ((relay uuid a).effect s).Inv chunks := by
  obtain ⟨log, h⟩ := h
  cases a with
  | pack => exact ⟨log, h.pack hchunks hguard.2⟩
  | wait => exact ⟨log, h.wait hguard.2.2⟩
  | flush => exact h.flush uuid hguard.2.1 (isNone_iff_eq_none.1 hguard.2.2)
  | last => exact h.last uuid hguard.2.1 hguard.2.2.1 (isNone_iff_eq_none.1 hguard.2.2.2)
  | readMetadata i => exact ⟨log, h.readMetadata hguard.2.1 hguard.2.2⟩
  | beginRead i => exact ⟨log, h.beginRead hguard.2⟩
  | finishRead i => exact ⟨log, h.finishRead hguard⟩
  | advance i =>
    exact ⟨log, h.advance hguard.2.1 (isNone_iff_eq_none.1 hguard.2.2.1) hguard.2.2.2⟩
  | publish i => exact h.publish uuid hguard.2
  | yield i => exact ⟨log, h.yield⟩
  | waitReadable i => exact ⟨log, h.waitReadable hguard.2.2.2⟩

end State

end Verl.CheckpointEngine.Nixl
