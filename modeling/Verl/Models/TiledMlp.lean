import Verl.Lib.Tensor

/-! # Tiled MLPs (`models/transformers/tiled_mlp.py`)

`TiledMLP` runs a row-wise MLP on one chunk of the tokens after the other.  Its backward takes the
gradients of the parameters out, sums the shards, and puts the old gradient back at shard number
`shards`.  `torch.chunk` may return fewer shards, and then the old gradient is lost (`exact_iff`).
-/

namespace Verl.TiledMlp

open List

variable {V P G : Type}

/-- A row-wise MLP: its value at a row, and what `autograd` gives the row and each parameter for the
gradient that arrives there. -/
structure Mlp (V P G : Type) where
  forward : V → V
  inputGrad : V → V → V
  paramGrad : P → V → V → G

/-- A row-wise function on a tensor `[bs, seqlen]` of hidden states. -/
def mapRows (f : V → V) (x : Tensor2 V) : Tensor2 V where
  cols := x.cols
  rows := x.rows.map (map f)
  width := by
    intro row hrow
    obtain ⟨row', hrow', rfl⟩ := mem_map.mp hrow
    rw [length_map]
    exact x.width row' hrow'

def forward (mlp : Mlp V P G) (x : Tensor2 V) (shards : Nat) : Except PyErr (Tensor2 V) := do
  let xShards ← x.chunkCols shards
  Tensor2.catCols (xShards.map (mapRows mlp.forward))

/-- `param.grad` and the side accumulator. -/
structure GradientAccumulator (P G : Type) where
  grad : P → Option G
  accumulatedGrads : P → G

section Algorithm

variable [AddCommMonoid V] [AddCommMonoid G]

def GradientAccumulator.init (grad : P → Option G) : GradientAccumulator P G where
  grad := fun _ => none
  accumulatedGrads := fun p => (grad p).getD 0

/-- The gradients of a shard arrive: first the hook, then what `autograd` adds to `param.grad`. -/
def GradientAccumulator.hook (isLastShard : Bool) (grad : P → G) (a : GradientAccumulator P G) :
    GradientAccumulator P G where
  grad := fun p =>
    -- the hook of the last shard clears `param.grad` and returns the accumulated gradient
    if isLastShard then some (a.accumulatedGrads p + grad p)
    else some ((a.grad p).elim (grad p) (· + grad p))
  accumulatedGrads := fun p => a.accumulatedGrads p + grad p

def backwardShard (mlp : Mlp V P G) (incomingGrad : List V) (shards firstStep : Nat)
    (s : List V × GradientAccumulator P G) (shard : List V × Nat) :
    List V × GradientAccumulator P G :=
  let shardStep := shard.1.length
  let shardOffset := shard.2 * firstStep
  let incomingGradShard := getSlice incomingGrad shardOffset shardStep
  let isLastShard := shard.2 + 1 == shards
  -- `x_shard.grad` is a view of `x_grad`, which `autograd` adds to in place
  (setSlice s.1 shardOffset (zipWith (· + ·) (getSlice s.1 shardOffset shardStep)
      (zipWith mlp.inputGrad shard.1 incomingGradShard)),
    s.2.hook isLastShard fun p => (zipWith (mlp.paramGrad p) shard.1 incomingGradShard).sum)

/-- `x` and `incomingGrad` are the flattened tensors; the result is `x_grad` and `param.grad`. -/
def backward (mlp : Mlp V P G) (x incomingGrad : List V) (shards : Nat) (grad : P → Option G) :
    Except PyErr (List V × (P → Option G)) := do
  let xShards ← torchChunk x shards
  let s := xShards.zipIdx.foldl
    (backwardShard mlp incomingGrad shards (xShards.headD []).length)
    (replicate x.length 0, .init grad)
  return (s.1, s.2.grad)

/-- The tiled MLP does what the MLP does, and adds its gradients to those that are there. -/
structure Exact (mlp : Mlp V P G) (x incomingGrad : Tensor2 V) (shards : Nat)
    (grad : P → Option G) : Prop where
  output : forward mlp x shards = .ok (mapRows mlp.forward x)
  grads : backward mlp x.rows.flatten incomingGrad.rows.flatten shards grad =
    .ok (zipWith mlp.inputGrad x.rows.flatten incomingGrad.rows.flatten, fun p =>
      some ((grad p).getD 0 +
        (zipWith (mlp.paramGrad p) x.rows.flatten incomingGrad.rows.flatten).sum))

end Algorithm

theorem forward_eq (mlp : Mlp V P G) {x : Tensor2 V} {shards : Nat} (hcols : 0 < x.cols)
    (hshards : 0 < shards) : forward mlp x shards = .ok (mapRows mlp.forward x) := by
  obtain ⟨size, -, -, hpos, -, -, hle, hbounds⟩ := exists_chunkBounds hcols hshards
  have hpiece : ∀ offset, mapRows mlp.forward (x.sliceCols offset size) =
      (mapRows mlp.forward x).sliceCols offset size := by
    intro offset
    refine Tensor2.ext rfl ?_
    show (x.rows.map _).map _ = (x.rows.map _).map _
    rw [map_map, map_map]
    refine map_congr_left fun row _ => ?_
    show map _ ((row.drop offset).take size) = ((map _ row).drop offset).take size
    rw [map_take, map_drop]
  unfold forward Tensor2.chunkCols
  rw [hbounds]
  show Tensor2.catCols ((map _ (map _ (range _))).map _) = _
  rw [map_map, map_map]
  refine (congrArg Tensor2.catCols (map_congr_left fun i _ => hpiece (i * size))).trans ?_
  exact Tensor2.catCols_chunkCols (t := mapRows mlp.forward x) hpos hle

section Backward

variable [AddCommMonoid V] [AddCommMonoid G] (mlp : Mlp V P G) (x incomingGrad : List V)
  (shards size : Nat) (grad : P → Option G)

/-- The gradient of a parameter over the first `m` rows. -/
def rowsGrad (m : Nat) (p : P) : G :=
  (zipWith (mlp.paramGrad p) (x.take m) (incomingGrad.take m)).sum

/-- What the loop has after `n` shards of `size` rows. -/
def stateAt (n : Nat) : List V × GradientAccumulator P G :=
  (zipWith mlp.inputGrad (x.take (n * size)) (incomingGrad.take (n * size)) ++
      replicate (x.length - n * size) 0,
    { grad := fun p =>
        if n = 0 then none
        else if n = shards then some ((grad p).getD 0 + rowsGrad mlp x incomingGrad (n * size) p)
        else some (rowsGrad mlp x incomingGrad (n * size) p)
      accumulatedGrads := fun p => (grad p).getD 0 + rowsGrad mlp x incomingGrad (n * size) p })

variable {mlp x incomingGrad shards size grad}

omit [AddCommMonoid G] in
theorem zipWith_add_replicate (data : List V) :
    zipWith (· + ·) (replicate data.length 0) data = data := by
  induction data with
  | nil => rfl
  | cons v data ih =>
    rw [length_cons, replicate_succ, zipWith_cons_cons, ih, zero_add]

omit [AddCommMonoid V] in
theorem rowsGrad_succ (hlen : incomingGrad.length = x.length) (n : Nat) (p : P) :
    rowsGrad mlp x incomingGrad ((n + 1) * size) p =
      rowsGrad mlp x incomingGrad (n * size) p +
        (zipWith (mlp.paramGrad p) (getSlice x (n * size) size)
          (getSlice incomingGrad (n * size) size)).sum := by
  unfold rowsGrad getSlice
  rw [Nat.succ_mul, take_add, take_add, zipWith_append (by simp [hlen]), sum_append]

theorem backwardShard_stateAt (hlen : incomingGrad.length = x.length) {n : Nat}
    (hoffset : n * size < x.length) (hn : n < shards) :
    backwardShard mlp incomingGrad shards size (stateAt mlp x incomingGrad shards size grad n)
      (getSlice x (n * size) size, n) =
        stateAt mlp x incomingGrad shards size grad (n + 1) := by
  have hslice : getSlice incomingGrad (n * size) (getSlice x (n * size) size).length =
      getSlice incomingGrad (n * size) size := by
    simp [getSlice, hlen]
  refine Prod.ext ?_ ?_
  · have hdata : (zipWith mlp.inputGrad (getSlice x (n * size) size)
        (getSlice incomingGrad (n * size) size)).length = min size (x.length - n * size) := by
      unfold getSlice
      simp [hlen]
    have hdone : (zipWith mlp.inputGrad (x.take (n * size)) (incomingGrad.take (n * size))).length =
        n * size := by
      simp [hlen, hoffset.le]
    have hstep : (getSlice x (n * size) size).length = min size (x.length - n * size) := by
      unfold getSlice
      rw [length_take, length_drop]
    show setSlice (_ ++ replicate _ 0) (n * size) (zipWith (· + ·)
      (getSlice (_ ++ replicate _ 0) (n * size) (getSlice x (n * size) size).length) _) = _
    rw [hslice, hstep]
    have hnext : (stateAt mlp x incomingGrad shards size grad (n + 1)).1 =
        zipWith mlp.inputGrad (x.take (n * size)) (incomingGrad.take (n * size)) ++
          zipWith mlp.inputGrad (getSlice x (n * size) size)
            (getSlice incomingGrad (n * size) size) ++
          replicate (x.length - (n + 1) * size) 0 := by
      unfold stateAt getSlice
      rw [Nat.succ_mul, take_add, take_add, zipWith_append (by simp [hlen])]
    rw [hnext]
    generalize zipWith mlp.inputGrad (getSlice x (n * size) size)
      (getSlice incomingGrad (n * size) size) = data at hdata
    generalize zipWith mlp.inputGrad (x.take (n * size)) (incomingGrad.take (n * size)) = done
      at hdone ⊢
    have hzero : getSlice (done ++ replicate (x.length - n * size) 0) (n * size)
        (min size (x.length - n * size)) = replicate data.length 0 := by
      unfold getSlice
      rw [← hdone, drop_left, hdone, take_replicate, hdata, Nat.min_assoc, Nat.min_self]
    have hset := setSlice_append done (replicate (x.length - n * size) 0) data
    rw [hdone] at hset
    rw [hzero, zipWith_add_replicate, hset, drop_replicate, hdata, ← append_assoc,
      show x.length - n * size - min size (x.length - n * size) = x.length - (n + 1) * size by
        rw [Nat.succ_mul]; omega]
  · have hsum : ∀ p, rowsGrad mlp x incomingGrad (n * size) p +
        (zipWith (mlp.paramGrad p) (getSlice x (n * size) size)
          (getSlice incomingGrad (n * size) size)).sum =
            rowsGrad mlp x incomingGrad ((n + 1) * size) p := fun p => (rowsGrad_succ hlen n p).symm
    show GradientAccumulator.hook (n + 1 == shards) _ _ = _
    rw [hslice]
    unfold GradientAccumulator.hook stateAt
    simp only [add_assoc, hsum, Nat.succ_ne_zero]
    congr 1
    funext p
    by_cases hlast : n + 1 = shards
    · simp [hlast]
    · rw [if_neg (by simpa using hlast), if_neg hlast]
      by_cases hzero : n = 0
      · subst hzero
        simpa [rowsGrad] using hsum p
      · simp [hzero, hn.ne, hsum]

theorem foldl_backwardShard (hlen : incomingGrad.length = x.length) {n : Nat}
    (hoffset : ∀ i < n, i * size < x.length) (hn : n ≤ shards) :
    ((range n).map fun i => getSlice x (i * size) size).zipIdx.foldl
        (backwardShard mlp incomingGrad shards size) (replicate x.length 0, .init grad) =
      stateAt mlp x incomingGrad shards size grad n := by
  induction n with
  | zero => simp [stateAt, rowsGrad, GradientAccumulator.init]
  | succ n ih =>
    rw [range_succ, map_append, zipIdx_append, foldl_append,
      ih (fun i hi => hoffset i (by omega)) (by omega)]
    simp only [length_map, length_range, Nat.zero_add]
    exact backwardShard_stateAt hlen (hoffset n (by omega)) (by omega)

variable (mlp grad) in
theorem backward_eq (hlen : incomingGrad.length = x.length) (hx : 0 < x.length)
    (hshards : 0 < shards) :
    backward mlp x incomingGrad shards grad = .ok (zipWith mlp.inputGrad x incomingGrad, fun p =>
      some ((if chunkCount x.length shards = shards then (grad p).getD 0 else 0) +
        (zipWith (mlp.paramGrad p) x incomingGrad).sum)) := by
  obtain ⟨size, hsize, hsizeLe, hpos, hcount, hoffset, hle, hbounds⟩ :=
    exists_chunkBounds hx hshards
  have hhead : (((range (chunkCount x.length shards)).map fun i =>
      getSlice x (i * size) size).headD []).length = size := by
    obtain ⟨k, hk⟩ := Nat.exists_eq_succ_of_ne_zero hpos.ne'
    rw [hk, range_succ_eq_map]
    exact length_getSlice (by omega)
  have htake : ∀ ys : List V, ys.length = x.length →
      ys.take (chunkCount x.length shards * size) = ys := fun ys hys =>
    take_of_length_le (by omega)
  have hmap : ((range (chunkCount x.length shards)).map fun i => (i * size, size)).map
      (fun b => getSlice x b.1 b.2) =
        (range (chunkCount x.length shards)).map fun i => getSlice x (i * size) size := map_map
  unfold backward torchChunk
  rw [hbounds]
  simp only [Except.map, hmap, ok_bind]
  rw [hhead, foldl_backwardShard hlen hoffset hcount]
  unfold stateAt rowsGrad
  rw [htake x rfl, htake incomingGrad hlen, Nat.sub_eq_zero_of_le hle, replicate_zero, append_nil]
  simp only [hpos.ne', if_false]
  refine congrArg Except.ok (Prod.ext rfl (funext fun p => ?_))
  by_cases hall : chunkCount x.length shards = shards
  · simp only [if_pos hall]
  · simp only [if_neg hall, zero_add]

end Backward

/-- The gradients from before survive when there are as many chunks as shards, and there is nothing
to lose when they are zero. -/
theorem exact_iff [AddCommMonoid V] [AddCommGroup G] (mlp : Mlp V P G) (x incomingGrad : Tensor2 V)
    (hshape : incomingGrad.shape = x.shape) (htokens : 0 < x.rows.length * x.cols) {shards : Nat}
    (hshards : 0 < shards) (grad : P → Option G) :
    Exact mlp x incomingGrad shards grad ↔
      chunkCount (x.rows.length * x.cols) shards = shards ∨ ∀ p, (grad p).getD 0 = 0 := by
  have hflat : ∀ t : Tensor2 V, t.rows.flatten.length = t.rows.length * t.cols := fun t => by
    rw [length_flatten, map_congr_left t.width, map_const', sum_replicate_nat]
  obtain ⟨hrows, hcols⟩ := Tensor2.shape_eq_iff.mp hshape
  have hlen : incomingGrad.rows.flatten.length = x.rows.flatten.length := by
    rw [hflat, hflat, hrows, hcols]
  have hback := backward_eq mlp grad hlen (by rwa [hflat]) hshards
  rw [hflat] at hback
  have hout := forward_eq mlp (Nat.pos_of_mul_pos_left htokens) hshards
  by_cases hall : chunkCount (x.rows.length * x.cols) shards = shards
  · simp only [if_pos hall] at hback
    exact iff_of_true ⟨hout, hback⟩ (Or.inl hall)
  · simp only [if_neg hall] at hback
    constructor
    · intro h
      refine Or.inr fun p => ?_
      have heq := congrFun (Prod.ext_iff.mp (Except.ok.inj (hback.symm.trans h.grads))).2 p
      simpa using heq
    · rintro (h | h)
      · exact absurd h hall
      · refine ⟨hout, hback.trans ?_⟩
        simp only [h, zero_add]

/-- One weight of 3, which each entry of the hidden states is multiplied by. -/
def scale : Mlp Int Unit Int where
  forward := (3 * ·)
  inputGrad := fun _ g => 3 * g
  paramGrad := fun _ v g => v * g

def fiveTokens : Tensor2 Int := ⟨5, [[1, 2, 3, 4, 5]], by decide⟩

theorem exact_iff_fiveTokens : Exact scale fiveTokens fiveTokens 3 (fun _ => some 7) ↔
    chunkCount 5 3 = 3 ∨ ∀ _ : Unit, (some (7 : Int)).getD 0 = 0 :=
  exact_iff scale fiveTokens fiveTokens rfl (by decide) (by decide) _

/-- Five tokens make three chunks of two tokens, none of which is the fourth. -/
theorem not_exact_four_shards : ¬ Exact scale fiveTokens fiveTokens 4 (fun _ => some 7) := by
  intro h
  have hgrad := congrArg (Except.map fun r => r.2 ()) h.grads
  revert hgrad
  decide

end Verl.TiledMlp
