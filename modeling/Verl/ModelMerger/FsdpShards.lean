import Verl.Lib.Tensor

/-! # Merging FSDP shards (`model_merger/fsdp_model_merger.py`)

The number of files to read is the last dimension of the device mesh of one entry, the first key in
order.  When that entry is a plain tensor, the mesh is `np.array([world_size])`, whose shape is
`(1,)`, and only the file of rank 0 is read (`mergesAll_iff`).
-/

namespace Verl.FsdpMerger

open List

/-- `device_mesh.mesh.shape` and `device_mesh.mesh_dim_names`. -/
structure Mesh where
  shape : List Nat
  dimNames : List String

inductive Placement where
  | replicate
  | shard (dim : Nat)
deriving DecidableEq

/-- An entry of a rank's file.  The local tensor is the list of its slices along the dimension the
entry is cut along. -/
inductive Entry (α : Type) where
  | dtensor (mesh : Mesh) (placements : List Placement) (localTensor : List α)
  | plain (tensor : List α)

variable {α : Type}

def pivotKey (keys : List String) : Except PyErr String :=
  pyGetItem (pySorted (fun a b => decide (a < b)) keys) 0

def getEntry (stateDict : List (String × Entry α)) (key : String) : Except PyErr (Entry α) :=
  match stateDict.lookup key with
  | some entry => .ok entry
  | none => .error (.keyError key)

def extractDeviceMeshInfo (stateDict : List (String × Entry α)) : Except PyErr Mesh := do
  let key ← pivotKey (stateDict.map Prod.fst)
  match ← getEntry stateDict key with
  | .dtensor mesh _ _ => return mesh
  -- `np.array([world_size])` is an array of one number
  | .plain _ => return ⟨[1], ["fsdp"]⟩

def calculateShardConfiguration (mesh : Mesh) : Except PyErr Nat := do
  pyAssert (mesh.dimNames ∈ [["fsdp"], ["ddp", "fsdp"]]) "Unsupported mesh_dim_names"
  match mesh.shape.getLast? with
  | some totalShards => return totalShards
  | none => .error .indexError

def mergeByPlacement (tensors : List (List α)) : Placement → Except PyErr (List α)
  | .replicate => pyGetItem tensors 0
  | .shard _ => torchCat tensors

/-- The tensor of one more rank, and the placements of the key. -/
def collectShard (bfloat16 : α → α) (dimNames : List String) (key : String)
    (s : List (List α) × Option (List Placement)) (stateDict : List (String × Entry α)) :
    Except PyErr (List (List α) × Option (List Placement)) := do
  match ← getEntry stateDict key with
  | .plain tensor => return (s.1 ++ [tensor.map bfloat16], s.2)
  | .dtensor _ placements localTensor =>
    let placements :=
      if dimNames.head? ∈ [some "dp", some "ddp"] then placements.drop 1 else placements
    if let some seen := s.2 then
      pyAssert (seen == placements) "param_placements[key] == placements"
    return (s.1 ++ [localTensor.map bfloat16], some placements)

def mergeKey (bfloat16 : α → α) (dimNames : List String)
    (files : List (List (String × Entry α))) (key : String) : Except PyErr (String × List α) := do
  let s ← files.foldlM (collectShard bfloat16 dimNames key) ([], none)
  match s.2 with
  | none => return (key, ← torchCat s.1)
  | some [placement] => return (key, ← mergeByPlacement s.1 placement)
  | some _ => .error (.assertionError "len(placements) == 1")

/-- What `merge_and_save` merges from the files of the ranks. -/
def mergeAndSave (bfloat16 : α → α) (file : Nat → List (String × Entry α)) :
    Except PyErr (List (String × List α)) := do
  let mesh ← extractDeviceMeshInfo (file 0)
  let totalShards ← calculateShardConfiguration mesh
  let files := (List.range totalShards).map file
  ((file 0).map Prod.fst).mapM (mergeKey bfloat16 mesh.dimNames files)

/-! ## Checkpoints -/

inductive Kind where
  | dtensor (placement : Placement)
  | plain
deriving DecidableEq

/-- What FSDP saves: `ddp` replicas of `fsdp` shards, or a mesh of `fsdp` alone. -/
structure Checkpoint (α : Type) where
  ddp : Option Nat
  fsdp : Nat
  fsdp_pos : 0 < fsdp
  keys : List String
  keys_ne_nil : keys ≠ []
  kind : String → Kind
  piece : String → Nat → List α

namespace Checkpoint

variable (c : Checkpoint α)

def mesh : Mesh :=
  match c.ddp with
  | none => ⟨[c.fsdp], ["fsdp"]⟩
  | some ddp => ⟨[ddp, c.fsdp], ["ddp", "fsdp"]⟩

def entry (rank : Nat) (key : String) : Entry α :=
  match c.kind key with
  | .plain => .plain (c.piece key (rank % c.fsdp))
  | .dtensor placement =>
    .dtensor c.mesh (if c.ddp.isSome then [.replicate, placement] else [placement])
      (c.piece key (rank % c.fsdp))

def file (rank : Nat) : List (String × Entry α) := c.keys.map fun key => (key, c.entry rank key)

/-- The full tensor: the pieces of the fsdp ranks in rank order, or the one copy. -/
def full (key : String) : List α :=
  match c.kind key with
  | .dtensor .replicate => c.piece key 0
  | _ => ((List.range c.fsdp).map (c.piece key)).flatten

/-- Every key is merged to its full tensor. -/
def MergesAll (bfloat16 : α → α) : Prop :=
  mergeAndSave bfloat16 c.file = .ok (c.keys.map fun key => (key, (c.full key).map bfloat16))

/-- The first key in order is a DTensor, or the file of rank 0 holds everything and no assertion on
the placements can fail. -/
def FirstFileSuffices : Prop :=
  (∃ key placement, pivotKey c.keys = .ok key ∧ c.kind key = .dtensor placement) ∨
    ∀ key ∈ c.keys, (c.kind key ≠ .plain → c.ddp = none) ∧
      (c.kind key ≠ .dtensor .replicate → ∀ rank, 1 ≤ rank → rank < c.fsdp → c.piece key rank = [])

/-! ## Lemmas -/

variable {c} {key : String}

theorem getEntry_file (hkey : key ∈ c.keys) (rank : Nat) :
    getEntry (c.file rank) key = .ok (c.entry rank key) := by
  unfold getEntry file
  rw [lookup_map_pair, if_pos hkey]

theorem map_fst_file (rank : Nat) : (c.file rank).map Prod.fst = c.keys := by
  simp [file, Function.comp_def]

/-- The placements of a DTensor without the one along the `ddp` dimension. -/
def placements (c : Checkpoint α) (dimNames : List String) (placement : Placement) :
    List Placement :=
  let placements := if c.ddp.isSome then [.replicate, placement] else [placement]
  if dimNames.head? ∈ [some "dp", some "ddp"] then placements.drop 1 else placements

def seen (c : Checkpoint α) (dimNames : List String) (key : String) (n : Nat) :
    Option (List Placement) :=
  match c.kind key with
  | .plain => none
  | .dtensor placement => if n = 0 then none else some (c.placements dimNames placement)

variable (bfloat16 : α → α)

theorem foldlM_collectShard (dimNames : List String) (hkey : key ∈ c.keys) (n : Nat) :
    ((range n).map c.file).foldlM (collectShard bfloat16 dimNames key) ([], none) =
      .ok ((range n).map fun rank => (c.piece key (rank % c.fsdp)).map bfloat16,
        c.seen dimNames key n) := by
  induction n with
  | zero => cases h : c.kind key <;> simp only [seen, h] <;> rfl
  | succ n ih =>
    rw [range_succ, map_append, foldlM_append, ih]
    show collectShard _ _ _ _ _ >>= pure = _
    unfold collectShard
    rw [getEntry_file hkey]
    unfold entry seen
    cases h : c.kind key with
    | plain =>
      simp only [map_append]
      rfl
    | dtensor placement =>
      by_cases hn : n = 0
      · subst hn
        rfl
      · simp [hn, placements]

/-- With the mesh of the checkpoint every file is read. -/
theorem mergeKey_mesh (hkey : key ∈ c.keys) :
    mergeKey bfloat16 c.mesh.dimNames ((range c.fsdp).map c.file) key =
      .ok (key, (c.full key).map bfloat16) := by
  have hpieces : (range c.fsdp).map (fun rank => (c.piece key (rank % c.fsdp)).map bfloat16) =
      (range c.fsdp).map fun rank => (c.piece key rank).map bfloat16 :=
    map_congr_left fun rank hrank => by rw [Nat.mod_eq_of_lt (mem_range.mp hrank)]
  have hcat : torchCat ((range c.fsdp).map fun rank => (c.piece key rank).map bfloat16) =
      .ok (((range c.fsdp).map (c.piece key)).flatten.map bfloat16) := by
    rw [torchCat_map_range c.fsdp_pos, map_flatten, map_map]
    rfl
  have hnames : ∀ placement, c.placements c.mesh.dimNames placement = [placement] := by
    intro placement
    unfold placements mesh
    cases c.ddp <;> simp
  unfold mergeKey
  rw [foldlM_collectShard bfloat16 _ hkey, ok_bind, hpieces]
  unfold seen full
  cases c.kind key with
  | plain => simp only [hcat]; rfl
  | dtensor placement =>
    simp only [c.fsdp_pos.ne', hnames]
    cases placement with
    | replicate =>
      have hfirst : pyGetItem ((range c.fsdp).map fun rank => (c.piece key rank).map bfloat16) 0 =
          .ok ((c.piece key 0).map bfloat16) := pyGetItem_eq_ok.mpr (by simp [c.fsdp_pos])
      simp only [mergeByPlacement, hfirst]
      rfl
    | shard dim =>
      simp only [mergeByPlacement, hcat]
      rfl

/-- With the mesh of a plain tensor the file of rank 0 is read. -/
theorem mergeKey_first (hkey : key ∈ c.keys) (res : String × List α) :
    mergeKey bfloat16 ["fsdp"] ((range 1).map c.file) key = .ok res ↔
      (c.kind key ≠ .plain → c.ddp = none) ∧ res = (key, (c.piece key 0).map bfloat16) := by
  unfold mergeKey
  rw [foldlM_collectShard bfloat16 _ hkey, ok_bind]
  unfold seen placements
  cases c.kind key with
  | plain => simp [torchCat, eq_comm]
  | dtensor placement =>
    cases hddp : c.ddp with
    | some ddp => simp
    | none => cases placement <;> simp [mergeByPlacement, torchCat, pyGetItem, eq_comm]

theorem flatten_pieces_iff (pieces : Nat → List α) {n : Nat} (hn : 0 < n) :
    ((range n).map pieces).flatten.map bfloat16 = (pieces 0).map bfloat16 ↔
      ∀ rank, 1 ≤ rank → rank < n → pieces rank = [] := by
  obtain ⟨m, rfl⟩ := Nat.exists_eq_succ_of_ne_zero hn.ne'
  rw [range_succ_eq_map, map_cons, flatten_cons, map_append, append_right_eq_self, map_eq_nil_iff,
    map_map, flatten_eq_nil_iff, forall_mem_map]
  constructor
  · intro h rank hone hrank
    obtain ⟨r, rfl⟩ := Nat.exists_eq_succ_of_ne_zero (Nat.one_le_iff_ne_zero.mp hone)
    exact h r (mem_range.mpr (by omega))
  · intro h rank hrank
    exact h (rank + 1) (by omega) (Nat.succ_lt_succ (mem_range.mp hrank))

theorem exists_pivotKey : ∃ key ∈ c.keys, pivotKey c.keys = .ok key := by
  have hpos : 0 < (pySorted (fun a b => decide (a < b)) c.keys).length := by
    rw [length_pySorted]
    exact length_pos_iff.mpr c.keys_ne_nil
  exact ⟨_, (mem_pySorted _ _ _).mp (getElem_mem hpos), pyGetItem_eq_ok.mpr (getElem?_eq_getElem hpos)⟩

theorem mergesAll_iff (bfloat16 : α → α) : c.MergesAll bfloat16 ↔ c.FirstFileSuffices := by
  obtain ⟨pivot, hpivot, hkey⟩ := exists_pivotKey (c := c)
  unfold MergesAll FirstFileSuffices
  cases hkind : c.kind pivot with
  | dtensor placement =>
    have hconfig : calculateShardConfiguration c.mesh = .ok c.fsdp := by
      unfold mesh
      cases c.ddp <;> rfl
    have hfiles : mergeAndSave bfloat16 c.file =
        c.keys.mapM (mergeKey bfloat16 c.mesh.dimNames ((range c.fsdp).map c.file)) := by
      unfold mergeAndSave extractDeviceMeshInfo
      rw [map_fst_file, hkey, ok_bind, getEntry_file hpivot]
      unfold entry
      rw [hkind]
      show (calculateShardConfiguration c.mesh >>= _) = _
      rw [hconfig, ok_bind]
    rw [hfiles]
    exact iff_of_true (mapM_eq_ok_map _ _ _ fun key hmem => mergeKey_mesh bfloat16 hmem)
      (Or.inl ⟨pivot, placement, hkey, hkind⟩)
  | plain =>
    have hfiles : mergeAndSave bfloat16 c.file =
        c.keys.mapM (mergeKey bfloat16 ["fsdp"] ((range 1).map c.file)) := by
      unfold mergeAndSave extractDeviceMeshInfo
      rw [map_fst_file, hkey, ok_bind, getEntry_file hpivot]
      unfold entry
      rw [hkind]
      rfl
    have hpivotKind : ¬∃ key placement, pivotKey c.keys = .ok key ∧
        c.kind key = .dtensor placement := by
      rintro ⟨key, placement, hkey', hkind'⟩
      rw [hkey] at hkey'
      cases hkey'
      rw [hkind] at hkind'
      cases hkind'
    rw [hfiles, mapM_eq_ok_iff fun key hmem res => mergeKey_first bfloat16 hmem res, map_inj_left,
      or_iff_right hpivotKind]
    refine forall₂_and.symm.trans (forall₂_congr fun key hmem => and_congr_right fun _ => ?_)
    rw [Prod.mk.injEq, and_iff_right rfl]
    unfold full
    cases c.kind key with
    | plain => exact (flatten_pieces_iff bfloat16 _ c.fsdp_pos).trans (by simp)
    | dtensor placement =>
      cases placement with
      | replicate => simp
      | shard dim => exact (flatten_pieces_iff bfloat16 _ c.fsdp_pos).trans (by simp)

/-- Two ranks; the plain entry comes first. -/
def buffersFirst : Checkpoint Int where
  ddp := none
  fsdp := 2
  fsdp_pos := Nat.two_pos
  keys := ["a_buffer", "weight"]
  keys_ne_nil := by decide
  kind := fun key => if key = "weight" then .dtensor (.shard 0) else .plain
  piece := fun _ rank => [rank]

theorem not_mergesAll_buffersFirst : ¬ buffersFirst.MergesAll id := by
  unfold MergesAll
  decide +kernel

end Checkpoint

end Verl.FsdpMerger
