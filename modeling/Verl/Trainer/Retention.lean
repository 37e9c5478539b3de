import Verl.Lib.Recent
import Verl.Trainer.Checkpoint
import Verl.Trainer.Resume

/-! # Which checkpoints stay on disk (`src/verl/utils/checkpoint/checkpoint_manager.py`)

Rank 0 of a checkpoint manager makes room before a save and enforces the limit `k`
after it.  Both read `previous_saved_paths`, in which a path stands as often as it was
registered, and both remove directories by path.

    ensure_checkpoint_capacity(k) | local_mkdir_safe(path), write | register_checkpoint(path, k)

A save leaves the `k` most recent checkpoints on disk as long as what it drops from the
list names a checkpoint that has left them (`Fits`).  A path that is saved again while it
is tracked takes a second place in the list: the save drops one checkpoint too many, and
with `k = 1` it is the one just written.

* `Manager.saveCheckpoint`: one save. -/

namespace Verl.Checkpoint

open List

/-! ## Algorithm -/

/-- `previous_saved_paths`, the directories on disk, and what was registered so far, the
oldest first.  A path is given by its step: no path is inside another one. -/
structure Manager where
  previousSavedPaths : List Nat
  onDisk : Nat → Bool
  registered : List Nat

/-- A manager starts with an empty list, whatever a job before it has left on disk. -/
def Manager.new (onDisk : Nat → Bool) : Manager where
  previousSavedPaths := []
  onDisk := onDisk
  registered := []

def removePreviousSaveLocalPath (paths : List Nat) (onDisk : Nat → Bool) : Nat → Bool :=
  fun path => onDisk path && !decide (path ∈ paths)

/-- `local_mkdir_safe`, and the files of the checkpoint. -/
def localMkdirSafe (path : Nat) (onDisk : Nat → Bool) : Nat → Bool :=
  fun other => decide (other = path) || onDisk other

namespace Manager

def ensureCheckpointCapacity (maxCkptToKeep : Option Nat) (m : Manager) : Manager :=
  let (removed, kept) := Checkpoint.ensureCheckpointCapacity maxCkptToKeep m.previousSavedPaths
  { m with
    previousSavedPaths := kept
    onDisk := removePreviousSaveLocalPath removed m.onDisk }

def writeCheckpoint (path : Nat) (m : Manager) : Manager :=
  { m with onDisk := localMkdirSafe path m.onDisk }

def registerCheckpoint (path : Nat) (maxCkptToKeep : Option Nat) (m : Manager) : Manager :=
  let (removed, kept) := Checkpoint.registerCheckpoint path maxCkptToKeep m.previousSavedPaths
  { previousSavedPaths := kept
    onDisk := removePreviousSaveLocalPath removed m.onDisk
    registered := m.registered ++ [path] }

/-- `save_checkpoint` on rank 0. -/
def saveCheckpoint (maxCkptToKeep : Option Nat) (m : Manager) (path : Nat) : Manager :=
  ((m.ensureCheckpointCapacity maxCkptToKeep).writeCheckpoint path).registerCheckpoint path
    maxCkptToKeep

def saveAll (maxCkptToKeep : Option Nat) (m : Manager) (paths : List Nat) : Manager :=
  paths.foldl (saveCheckpoint maxCkptToKeep) m

/-- The registered directories that exist, each once, in the order they were last saved. -/
def existing (m : Manager) : List Nat := m.registered.dedup.filter m.onDisk

end Manager

/-! ## Property -/

/-- The newest checkpoint exists, and what exists are the `k` most recent ones. -/
structure Retained (k : Nat) (m : Manager) : Prop where
  newest : ∀ path, m.registered.getLast? = some path → m.onDisk path = true
  atMost : m.existing.length ≤ k
  mostRecent : m.existing = recent k m.registered

/-- The save of `path` drops nothing, or a checkpoint that `path` pushes out, or (unless
`k` is 1) the older entry of `path` itself. -/
def Fits (k : Nat) (m : Manager) (path : Nat) : Prop :=
  m.previousSavedPaths.length < k ∨ (m.previousSavedPaths ++ [path]).Nodup ∨
    1 < k ∧ m.previousSavedPaths.head? = some path

instance (k : Nat) (m : Manager) (path : Nat) : Decidable (Fits k m path) :=
  inferInstanceAs (Decidable (_ ∨ _ ∨ _))

/-! ## Lemmas: one save -/

/-- The list holds the last `k` paths registered. -/
def Tracks (k : Nat) (m : Manager) : Prop :=
  m.previousSavedPaths = m.registered.rtake k

variable {k : Nat} {m : Manager} {path other : Nat}

@[simp] theorem removePreviousSaveLocalPath_nil (onDisk : Nat → Bool) :
    removePreviousSaveLocalPath [] onDisk = onDisk := by
  funext other
  simp [removePreviousSaveLocalPath]

@[simp] theorem registered_saveCheckpoint (limit : Option Nat) :
    (m.saveCheckpoint limit path).registered = m.registered ++ [path] := rfl

theorem saveCheckpoint_of_lt (hlt : m.previousSavedPaths.length < k) :
    m.saveCheckpoint (some k) path =
      { previousSavedPaths := m.previousSavedPaths ++ [path]
        onDisk := localMkdirSafe path m.onDisk
        registered := m.registered ++ [path] } := by
  have hensure : Checkpoint.ensureCheckpointCapacity (some k) m.previousSavedPaths =
      ([], m.previousSavedPaths) := if_neg (by omega)
  have hregister : Checkpoint.registerCheckpoint path (some k) m.previousSavedPaths =
      ([], m.previousSavedPaths ++ [path]) :=
    if_neg (by rw [length_append, length_singleton]; omega)
  simp [Manager.saveCheckpoint, Manager.ensureCheckpointCapacity, Manager.writeCheckpoint,
    Manager.registerCheckpoint, hensure, hregister]

/-- A full list loses its oldest entry before the save. -/
theorem saveCheckpoint_of_full {oldest : Nat} {rest : List Nat}
    (hpaths : m.previousSavedPaths = oldest :: rest) (hk : rest.length + 1 = k) (hone : 1 < k) :
    m.saveCheckpoint (some k) path =
      { previousSavedPaths := rest ++ [path]
        onDisk := localMkdirSafe path (removePreviousSaveLocalPath [oldest] m.onDisk)
        registered := m.registered ++ [path] } := by
  have hensure : Checkpoint.ensureCheckpointCapacity (some k) m.previousSavedPaths =
      ([oldest], rest) := by
    unfold Checkpoint.ensureCheckpointCapacity
    rw [hpaths, length_cons, hk]
    simp [hone]
  have hregister : Checkpoint.registerCheckpoint path (some k) rest = ([], rest ++ [path]) :=
    if_neg (by rw [length_append, length_singleton]; omega)
  simp [Manager.saveCheckpoint, Manager.ensureCheckpointCapacity, Manager.writeCheckpoint,
    Manager.registerCheckpoint, hensure, hregister]

/-- With a limit of one the old checkpoint goes after the save. -/
theorem saveCheckpoint_of_one {oldest : Nat} (hpaths : m.previousSavedPaths = [oldest]) :
    m.saveCheckpoint (some 1) path =
      { previousSavedPaths := [path]
        onDisk := removePreviousSaveLocalPath [oldest] (localMkdirSafe path m.onDisk)
        registered := m.registered ++ [path] } := by
  simp [Manager.saveCheckpoint, Manager.ensureCheckpointCapacity, Manager.writeCheckpoint,
    Manager.registerCheckpoint, Checkpoint.registerCheckpoint,
    Checkpoint.ensureCheckpointCapacity, hpaths]

theorem Tracks.length_le (h : Tracks k m) : m.previousSavedPaths.length ≤ k := by
  rw [h, rtake, length_drop]
  omega

theorem Tracks.suffix (h : Tracks k m) : m.previousSavedPaths <:+ m.registered :=
  h ▸ drop_suffix _ _

/-- A list that is not full names everything that was registered. -/
theorem Tracks.eq_registered (h : Tracks k m) (hlt : m.previousSavedPaths.length < k) :
    m.previousSavedPaths = m.registered := by
  have hlen : m.previousSavedPaths.length = m.registered.length - (m.registered.length - k) := by
    rw [h, rtake, length_drop]
  rw [h, rtake, Nat.sub_eq_zero_of_le (by omega), drop_zero]

/-- The list of a manager is empty with room for a path, or it has an oldest entry. -/
theorem Tracks.cases (hk : 0 < k) (h : Tracks k m) : m.previousSavedPaths.length < k ∨
      ∃ oldest rest, m.previousSavedPaths = oldest :: rest ∧ rest.length + 1 = k := by
  rcases Nat.lt_or_ge m.previousSavedPaths.length k with hlt | hge
  · exact .inl hlt
  · cases hpaths : m.previousSavedPaths with
    | nil =>
      rw [hpaths] at hge
      exact absurd hge (Nat.not_le.mpr hk)
    | cons oldest rest =>
      refine .inr ⟨oldest, rest, rfl, ?_⟩
      have hle := h.length_le
      rw [hpaths, length_cons] at hge hle
      omega

theorem Tracks.saveCheckpoint (hk : 0 < k) (h : Tracks k m) (path : Nat) :
    Tracks k (m.saveCheckpoint (some k) path) := by
  obtain ⟨j, rfl⟩ := Nat.exists_eq_succ_of_ne_zero (Nat.ne_of_gt hk)
  unfold Tracks
  rw [registered_saveCheckpoint, rtake_concat_succ]
  have hlast : ∀ oldest rest, m.previousSavedPaths = oldest :: rest → rest.length = j →
      m.registered.rtake j = rest := by
    rintro oldest rest hpaths rfl
    obtain ⟨first, hfirst⟩ := h.suffix
    rw [hpaths, append_cons] at hfirst
    rw [← hfirst, rtake, length_append, Nat.add_sub_cancel]
    exact drop_left
  rcases h.cases hk with hlt | ⟨oldest, rest, hpaths, hrest⟩
  · rw [saveCheckpoint_of_lt hlt, h.eq_registered hlt, rtake, Nat.sub_eq_zero_of_le,
      drop_zero]
    exact Nat.le_of_lt_succ (h.eq_registered hlt ▸ hlt)
  · rw [hlast oldest rest hpaths (Nat.succ.inj hrest)]
    rcases Nat.eq_zero_or_pos j with rfl | hj
    · obtain rfl := length_eq_zero_iff.mp (Nat.succ.inj hrest)
      rw [saveCheckpoint_of_one hpaths]
      rfl
    · rw [saveCheckpoint_of_full hpaths hrest (Nat.succ_lt_succ hj)]

/-- Unless it is the oldest checkpoint that is saved again, that one is gone after the
save of a full manager, whichever call removes it. -/
theorem saveCheckpoint_of_ne {oldest : Nat} {rest : List Nat}
    (hpaths : m.previousSavedPaths = oldest :: rest) (hrest : rest.length + 1 = k)
    (hne : path ≠ oldest) :
    m.saveCheckpoint (some k) path =
      { previousSavedPaths := rest ++ [path]
        onDisk := removePreviousSaveLocalPath [oldest] (localMkdirSafe path m.onDisk)
        registered := m.registered ++ [path] } := by
  rcases Nat.eq_zero_or_pos rest.length with hnil | hpos
  · obtain rfl := length_eq_zero_iff.mp hnil
    obtain rfl : 1 = k := hrest
    exact saveCheckpoint_of_one hpaths
  · rw [saveCheckpoint_of_full hpaths hrest (by omega)]
    congr 1
    funext other
    by_cases hother : other = path
    · subst hother
      simp [localMkdirSafe, removePreviousSaveLocalPath, hne]
    · simp [localMkdirSafe, removePreviousSaveLocalPath, hother]

/-! ## Lemmas: what stays -/

theorem existing_eq_recent_iff : m.existing = recent k m.registered ↔
      ∀ path ∈ m.registered, m.onDisk path = true ↔ path ∈ recent k m.registered :=
  filter_dedup_eq_recent_iff

/-- What is on disk decides the other two fields. -/
theorem retained_iff (hk : 0 < k) : Retained k m ↔
      ∀ path ∈ m.registered, m.onDisk path = true ↔ path ∈ recent k m.registered := by
  rw [← existing_eq_recent_iff]
  refine ⟨Retained.mostRecent, fun h => ⟨fun path hlast => ?_, ?_, h⟩⟩
  · obtain ⟨before, hregistered⟩ := getLast?_eq_some_iff.mp hlast
    rw [existing_eq_recent_iff, hregistered] at h
    exact (h path (mem_append_right _ mem_cons_self)).mpr (mem_recent_append_self hk)
  · rw [h, length_recent]
    exact Nat.min_le_left _ _

theorem retained_new (k : Nat) (onDisk : Nat → Bool) : Retained k (Manager.new onDisk) :=
  ⟨fun _ h => (nomatch h), Nat.zero_le k, (rtake_nil k).symm⟩

/-- With room in the list nothing is removed. -/
theorem retained_of_lt (hk : 0 < k) (htracks : Tracks k m) (h : Retained k m)
    (hlt : m.previousSavedPaths.length < k) : Retained k (m.saveCheckpoint (some k) path) := by
  rw [saveCheckpoint_of_lt hlt, retained_iff hk]
  rw [retained_iff hk] at h
  have hlen : m.registered.length < k := htracks.eq_registered hlt ▸ hlt
  have hall : recent k (m.registered ++ [path]) = (m.registered ++ [path]).dedup := by
    apply recent_of_length_le
    apply Nat.le_trans length_dedup_le
    rw [length_append]
    exact hlen
  have hdisk : ∀ other ∈ m.registered, m.onDisk other = true := fun other hother =>
    (h other hother).mpr <| by
      rw [recent_of_length_le (Nat.le_trans length_dedup_le (Nat.le_of_lt hlen))]
      exact mem_dedup.mpr hother
  intro other hother
  rw [hall, mem_dedup]
  refine ⟨fun _ => hother, fun _ => ?_⟩
  rcases mem_append.mp hother with hother | hother
  · simp [localMkdirSafe, hdisk other hother]
  · simp [localMkdirSafe, mem_singleton.mp hother]

/-- The oldest checkpoint, saved again, is removed and written anew. -/
theorem retained_of_oldest {rest : List Nat} (htracks : Tracks k m) (h : Retained k m)
    (hpaths : m.previousSavedPaths = path :: rest) (hrest : rest.length + 1 = k)
    (hone : 1 < k) : Retained k (m.saveCheckpoint (some k) path) := by
  have hk : 0 < k := Nat.lt_of_succ_lt hone
  rw [saveCheckpoint_of_full hpaths hrest hone, retained_iff hk]
  rw [retained_iff hk] at h
  have hrecent : path ∈ recent k m.registered := by
    apply mem_recent_of_mem_rtake
    rw [← htracks, hpaths]
    exact mem_cons_self
  intro other hother
  rw [mem_recent_append_of_mem hrecent]
  by_cases heq : other = path
  · subst heq
    simpa [localMkdirSafe] using hrecent
  · have hregistered : other ∈ m.registered :=
      (mem_append.mp hother).resolve_right fun h => heq (mem_singleton.mp h)
    rw [← h other hregistered]
    simp [localMkdirSafe, removePreviousSaveLocalPath, heq]

/-- A new path beside distinct ones pushes the oldest of them out. -/
theorem retained_of_nodup {oldest : Nat} {rest : List Nat} (htracks : Tracks k m)
    (h : Retained k m) (hpaths : m.previousSavedPaths = oldest :: rest)
    (hrest : rest.length + 1 = k) (hnodup : (oldest :: (rest ++ [path])).Nodup) :
    Retained k (m.saveCheckpoint (some k) path) := by
  obtain ⟨houtside, hnewest⟩ := nodup_cons.mp hnodup
  have hk : 0 < k := hrest ▸ Nat.succ_pos _
  have hne : path ≠ oldest := fun heq =>
    houtside (heq ▸ mem_append_right _ mem_cons_self)
  have hsuffix : oldest :: rest <:+ m.registered := hpaths ▸ htracks.suffix
  have hbefore : recent k m.registered = oldest :: rest :=
    recent_of_suffix hsuffix (nodup_append.mp (cons_append ▸ hnodup)).1 hrest
  have hafter : recent k (m.registered ++ [path]) = rest ++ [path] := by
    apply recent_of_suffix ?_ hnewest
    · grind
    · obtain ⟨first, hfirst⟩ := hsuffix
      exact ⟨first ++ [oldest], by rw [← hfirst]; simp⟩
  rw [saveCheckpoint_of_ne hpaths hrest hne, retained_iff hk]
  rw [retained_iff hk, hbefore] at h
  intro other hother
  rw [hafter]
  by_cases heq : other = path
  · subst heq
    simp [localMkdirSafe, removePreviousSaveLocalPath, hne]
  · have hregistered : other ∈ m.registered :=
      (mem_append.mp hother).resolve_right fun h => heq (mem_singleton.mp h)
    have hold := h other hregistered
    by_cases holdest : other = oldest
    · subst holdest
      simpa [removePreviousSaveLocalPath, heq] using
        fun hmem => houtside (mem_append_left _ hmem)
    · simpa [localMkdirSafe, removePreviousSaveLocalPath, heq, holdest] using hold

/-- A repetition among the tracked paths makes the save remove a recent checkpoint. -/
theorem not_retained_of_repeat {oldest : Nat} {rest : List Nat} (htracks : Tracks k m)
    (hpaths : m.previousSavedPaths = oldest :: rest) (hrest : rest.length + 1 = k)
    (hne : path ≠ oldest) (hrepeat : ¬(oldest :: (rest ++ [path])).Nodup) :
    ¬Retained k (m.saveCheckpoint (some k) path) := by
  have hk : 0 < k := hrest ▸ Nat.succ_pos _
  have hsuffix : oldest :: (rest ++ [path]) <:+ m.registered ++ [path] := by
    obtain ⟨first, hfirst⟩ := htracks.suffix
    exact ⟨first, by rw [← hfirst, hpaths]; simp⟩
  have hrecent : oldest ∈ recent k (m.registered ++ [path]) := by
    apply mem_recent_of_not_nodup hsuffix ?_ hrepeat
    rw [length_append, length_singleton, hrest]
  rw [saveCheckpoint_of_ne hpaths hrest hne, retained_iff hk]
  intro h
  have hdisk := (h oldest (mem_of_mem_recent hrecent)).mpr hrecent
  simp [removePreviousSaveLocalPath] at hdisk

/-- With a limit of one, the checkpoint that was just saved again is removed. -/
theorem not_retained_of_one (hpaths : m.previousSavedPaths = [path]) :
    ¬Retained 1 (m.saveCheckpoint (some 1) path) := by
  rw [saveCheckpoint_of_one hpaths]
  intro h
  have hdisk := h.newest path getLast?_concat
  simp [removePreviousSaveLocalPath] at hdisk

theorem retained_saveCheckpoint_iff (hk : 0 < k) (htracks : Tracks k m) (h : Retained k m)
    (path : Nat) : Retained k (m.saveCheckpoint (some k) path) ↔ Fits k m path := by
  rcases htracks.cases hk with hlt | ⟨oldest, rest, hpaths, hrest⟩
  · exact iff_of_true (retained_of_lt hk htracks h hlt) (.inl hlt)
  · have hfull : ¬m.previousSavedPaths.length < k := by grind
    unfold Fits
    rw [or_iff_right hfull, hpaths, head?_cons, cons_append]
    by_cases heq : path = oldest
    · subst heq
      have hrepeat : ¬(path :: (rest ++ [path])).Nodup := fun hnodup =>
        (nodup_cons.mp hnodup).1 (mem_append_right _ mem_cons_self)
      rw [or_iff_right hrepeat]
      rcases Nat.lt_or_ge 1 k with hone | hone
      · exact iff_of_true (retained_of_oldest htracks h hpaths hrest hone) ⟨hone, rfl⟩
      · obtain rfl : k = 1 := Nat.le_antisymm hone hk
        obtain rfl := length_eq_zero_iff.mp (Nat.succ.inj hrest)
        exact iff_of_false (not_retained_of_one hpaths) fun hone => Nat.lt_irrefl 1 hone.1
    · have hhead : ¬(1 < k ∧ some oldest = some path) := fun hhead =>
        heq (Option.some.inj hhead.2).symm
      rw [or_iff_left hhead]
      by_cases hnodup : (oldest :: (rest ++ [path])).Nodup
      · exact iff_of_true (retained_of_nodup htracks h hpaths hrest hnodup) hnodup
      · exact iff_of_false (not_retained_of_repeat htracks hpaths hrest heq hnodup) hnodup

/-! ## Top theorem -/

theorem tracks_new (k : Nat) (onDisk : Nat → Bool) : Tracks k (Manager.new onDisk) :=
  (rtake_nil k).symm

theorem retained_saveAll_iff (hk : 0 < k) (htracks : Tracks k m) (h : Retained k m)
    (paths : List Nat) :
    (∀ n ≤ paths.length, Retained k (m.saveAll (some k) (paths.take n))) ↔
      ∀ n, (hn : n < paths.length) → Fits k (m.saveAll (some k) (paths.take n)) paths[n] := by
  induction paths generalizing m with
  | nil => exact iff_of_true (fun n _ => by rw [take_nil]; exact h) fun n hn => by cases hn
  | cons path paths ih =>
    have hstep := retained_saveCheckpoint_iff hk htracks h path
    constructor
    · intro hall
      have hnext : Retained k (m.saveCheckpoint (some k) path) :=
        hall 1 (Nat.succ_le_succ (Nat.zero_le _))
      have hrest := (ih (htracks.saveCheckpoint hk path) hnext).mp fun n hn =>
        hall (n + 1) (Nat.succ_le_succ hn)
      intro n hn
      cases n with
      | zero => exact hstep.mp hnext
      | succ n => exact hrest n (Nat.lt_of_succ_lt_succ hn)
    · intro hall
      have hnext := hstep.mpr (hall 0 (Nat.succ_pos _))
      have hrest := (ih (htracks.saveCheckpoint hk path) hnext).mpr fun n hn =>
        hall (n + 1) (Nat.succ_lt_succ hn)
      intro n hn
      cases n with
      | zero => exact h
      | succ n => exact hrest n (Nat.le_of_succ_le_succ hn)

/-- After every save of a run the most recent checkpoint exists and the `k` most recent ones
are what exists, exactly when every save of the run fits. -/
theorem retained_iff_fits (k : Nat) (hk : 1 ≤ k) (onDisk : Nat → Bool) (paths : List Nat) :
    (∀ n ≤ paths.length,
      Retained k ((Manager.new onDisk).saveAll (some k) (paths.take n))) ↔
    ∀ n, (hn : n < paths.length) →
      Fits k ((Manager.new onDisk).saveAll (some k) (paths.take n)) paths[n] :=
  retained_saveAll_iff hk (tracks_new k onDisk) (retained_new k onDisk) paths

/-- Steps 100, 200 and 300 with two checkpoints to keep, then the older of the two again. -/
theorem retained_iff_fits_resaved :
    Retained 2 ((Manager.new fun _ => false).saveAll (some 2) [100, 200, 300, 200]) :=
  (retained_iff_fits 2 (by decide) (fun _ => false) [100, 200, 300, 200]).mpr (by decide) 4 (by decide)

/-- The checkpoint of step 7 is saved twice with one checkpoint to keep. -/
theorem not_retained_saved_twice :
    ¬∀ k, 1 ≤ k → ∀ (onDisk : Nat → Bool) (paths : List Nat), ∀ n ≤ paths.length,
      Retained k ((Manager.new onDisk).saveAll (some k) (paths.take n)) := fun h =>
  absurd ((h 1 (by decide) (fun _ => false) [7, 7] 2 (by decide)).newest 7 rfl) (by decide)

/-! ## Training runs -/

theorem Tracks.saveAll (hk : 0 < k) (h : Tracks k m) (paths : List Nat) :
    Tracks k (m.saveAll (some k) paths) ∧
      (m.saveAll (some k) paths).registered = m.registered ++ paths := by
  induction paths generalizing m with
  | nil => exact ⟨h, (append_nil _).symm⟩
  | cons path paths ih =>
    obtain ⟨htracks, hregistered⟩ := ih (h.saveCheckpoint hk path)
    refine ⟨htracks, hregistered.trans ?_⟩
    rw [registered_saveCheckpoint, append_assoc, singleton_append]

/-- Paths that are saved once each always fit. -/
theorem retained_of_distinct (hk : 0 < k) (onDisk : Nat → Bool) {paths : List Nat}
    (h : paths.Nodup) : Retained k ((Manager.new onDisk).saveAll (some k) paths) := by
  have hall := (retained_saveAll_iff hk (tracks_new k onDisk) (retained_new k onDisk) paths).mpr
    fun n hn => by
      obtain ⟨htracks, hregistered⟩ := (tracks_new k onDisk).saveAll hk (paths.take n)
      have hbefore : (paths.take n ++ [paths[n]]).Nodup := by
        rw [take_append_getElem]
        exact h.sublist (take_sublist _ _)
      have hsuffix := htracks.suffix
      rw [hregistered] at hsuffix
      exact .inr (.inl (hbefore.sublist (hsuffix.sublist.append (Sublist.refl _))))
  have hlast := hall paths.length (Nat.le_refl _)
  rwa [take_length] at hlast

/-- Whenever a trainer saves and wherever it was resumed, after each save of the run its last `k + 1`
checkpoints are on disk, and none of the others it saved. -/
theorem fit_retains {Loader StateDict : Type} (D : Resume.StatefulDataLoader Loader StateDict)
    (cfg : Resume.Config) (tr : Resume.Trainer Loader StateDict)
    (checkpoint : Option (Nat × StateDict)) (onDisk : Nat → Bool) (k n : Nat) :
    Retained (k + 1) ((Manager.new onDisk).saveAll (some (k + 1))
      (((Resume.fit D cfg tr checkpoint).checkpoints.map Prod.fst).take n)) :=
  retained_of_distinct (Nat.succ_pos k) onDisk
    ((Resume.nodup_checkpoints D cfg tr checkpoint).sublist (take_sublist _ _))

end Verl.Checkpoint
