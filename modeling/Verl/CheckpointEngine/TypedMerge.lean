import Verl.CheckpointEngine.Delivery
import Verl.CheckpointEngine.TypedWeights

/-! # Merging chunks with a dtype

The chunks of a weight larger than a bucket are written as in `WeightChunks`; a smaller weight is one
chunk and is viewed as its dtype where it is in the received buffer.

* `mergeStep_of_small`, `mergeStep_of_bytes`: the two kinds of chunk. -/

namespace Verl.TypedWeights

open List

open CheckpointEngine (Merge Uninitialized ChunkStream)

variable {bucketSize : Nat} {empty : Uninitialized}

variable {c : Chunk} {w : Weight} {cs : List (Chunk × Nat)}

/-- The bytes of a weight can be viewed where its element size divides the offset. -/
theorem viewAs_eq_ok {v : Weight} {offset : Nat} :
    viewAs w.name w.dtype w.shape offset w.bytes = .ok v ↔ w.dtype.itemsize ∣ offset ∧ v = w := by
  unfold viewAs
  by_cases h : w.dtype.itemsize ∣ offset
  · rw [if_neg (not_not.2 h), dif_pos w.length_eq]
    exact ⟨fun hv => ⟨h, (Except.ok.inj hv).symm⟩, fun hv => congrArg Except.ok hv.2.symm⟩
  · grind

/-! ## Chunks as bytes -/

theorem asBytes_nbytes (w : Weight) : w.asBytes.nbytes = w.nbytes := prod_singleton

theorem map_asBytes_splitWeight (w : Weight) : (splitWeight bucketSize w).map Chunk.asBytes =
      CheckpointEngine.splitLoop bucketSize w.asBytes w.asBytes.nbytes 0 := by
  unfold splitWeight
  rw [map_map, asBytes_nbytes]
  refine (map_congr_left fun c hc => ?_).trans (map_id _)
  obtain ⟨offset, size, rfl⟩ := CheckpointEngine.exists_chunk_of_mem_splitLoop hc
  rfl

theorem chunkStream_asBytes {ws : List Weight} (hpos : 0 < bucketSize)
    (hnodup : (ws.map Weight.name).Nodup) :
    ChunkStream bucketSize ((splitWeightChunks bucketSize ws).map Chunk.asBytes) := by
  have hsplit : (splitWeightChunks bucketSize ws).map Chunk.asBytes =
      CheckpointEngine.splitWeightChunks bucketSize (ws.map Weight.asBytes) := by
    unfold splitWeightChunks CheckpointEngine.splitWeightChunks
    rw [map_flatMap, flatMap_map]
    exact flatMap_congr fun w _ => map_asBytes_splitWeight w
  have hnames : ((ws.map Weight.asBytes).map CheckpointEngine.Weight.name).Nodup := by
    rw [map_map]
    exact hnodup
  rw [hsplit]
  exact
    { isChunk := fun c hc => by
        obtain ⟨w, -, hw⟩ := CheckpointEngine.exists_isChunkOf hpos hc
        exact ⟨w, hw⟩
      pairwise := CheckpointEngine.splitWeightChunks_pairwise hpos hnames }

/-! ## Merging -/

/-- The chunk as it was cut. -/
def Chunk.unplaced (c : Chunk) : Chunk :=
  { c with tensorMeta := { c.tensorMeta with offset := none } }

/-- The metadata of a chunk of `w`. -/
structure Chunk.IsOf (c : Chunk) (w : Weight) : Prop where
  name : c.tensorMeta.name = w.name
  shape : c.tensorMeta.shape = w.shape
  dtype : c.tensorMeta.dtype = w.dtype

theorem isOf_of_mem (h : c.unplaced ∈ splitWeight bucketSize w) : c.IsOf w := by
  obtain ⟨d, -, hd⟩ := mem_map.1 h
  exact
    { name := congrArg (fun c => c.tensorMeta.name) hd.symm
      shape := congrArg (fun c => c.tensorMeta.shape) hd.symm
      dtype := congrArg (fun c => c.tensorMeta.dtype) hd.symm }

theorem Chunk.IsOf.nbytes (h : c.IsOf w) : c.tensorMeta.nbytes = w.nbytes := by
  unfold TensorMeta.nbytes Weight.nbytes
  rw [h.shape, h.dtype]

theorem mergeLoop_cons (st : Option Merge) (p : Chunk × Nat) (ps : List (Chunk × Nat)) :
    mergeLoop bucketSize empty st (p :: ps) = (do
      let r ← mergeStep bucketSize empty st p.1 p.2
      let outs ← mergeLoop bucketSize empty r.1 ps
      return r.2 ++ outs) := rfl

/-- A weight that fits into a bucket is viewed where it is. -/
theorem mergeStep_of_small {offset : Nat} (hsmall : w.nbytes ≤ bucketSize)
    (hc : c.IsOf w) (hdata : c.data = w.bytes) :
    mergeStep bucketSize empty none c offset =
      (viewAs w.name w.dtype w.shape offset w.bytes).map fun v => (none, [v]) := by
  have hsmall' : c.tensorMeta.nbytes ≤ bucketSize := by
    rw [hc.nbytes]
    exact hsmall
  unfold mergeStep
  rw [if_pos hsmall', hc.name, hc.dtype, hc.shape, hdata]
  cases viewAs w.name w.dtype w.shape offset w.bytes <;> rfl

theorem mergeStep_of_bytes (offset : Nat) {st st' : Option Merge}
    {out : List CheckpointEngine.Weight} (hlarge : bucketSize < w.nbytes)
    (hc : c.IsOf w) (hstep : CheckpointEngine.mergeStep bucketSize empty st c.asBytes = .ok (st', out))
    (hout : ∀ v ∈ out, v = w.asBytes) :
    mergeStep bucketSize empty st c offset = .ok (st', out.map fun _ => w) := by
  have hbig : ¬c.tensorMeta.nbytes ≤ bucketSize := by
    rw [hc.nbytes]
    omega
  have hbytes : ¬c.asBytes.tensorMeta.nbytes ≤ bucketSize := by
    show ¬[c.tensorMeta.nbytes].prod ≤ bucketSize
    rwa [prod_singleton]
  have hviews : (out.mapM fun v => viewAs v.name w.dtype w.shape 0 v.bytes) =
      .ok (out.map fun _ => w) :=
    mapM_eq_ok_map _ _ _ fun v hv => by
      rw [hout v hv]
      exact viewAs_eq_ok.2 ⟨Nat.dvd_zero _, rfl⟩
  unfold CheckpointEngine.mergeStep at hstep
  dsimp only at hstep
  rw [if_neg hbytes] at hstep
  obtain ⟨merge, hbegin, hwrite⟩ := bind_eq_ok.1 hstep
  unfold mergeStep
  dsimp only
  rw [if_neg hbig, hbegin, ok_bind, hwrite, ok_bind]
  dsimp only
  rw [hc.shape, hc.dtype, hviews]
  rfl

theorem mergeLoop_of_bytes {rest : List (Chunk × Nat)} {st st' : Option Merge}
    {out : List CheckpointEngine.Weight} (hlarge : bucketSize < w.nbytes)
    (hcs : ∀ p ∈ cs, p.1.IsOf w)
    (hbytes : CheckpointEngine.mergeLoop bucketSize empty st (cs.map fun p => p.1.asBytes) =
      .ok (st', out))
    (hout : ∀ v ∈ out, v = w.asBytes) :
    mergeLoop bucketSize empty st (cs ++ rest) =
      (do
        let outs ← mergeLoop bucketSize empty st' rest
        return (out.map fun _ => w) ++ outs) := by
  induction cs generalizing st out with
  | nil =>
    cases hbytes
    exact (bind_pure _).symm
  | cons p cs ih =>
    rw [map_cons, CheckpointEngine.mergeLoop_cons] at hbytes
    obtain ⟨⟨st₁, out₁⟩, hstep, hbytes⟩ := bind_eq_ok.1 hbytes
    obtain ⟨⟨st₂, out₂⟩, hloop, hbytes⟩ := bind_eq_ok.1 hbytes
    cases hbytes
    have hstep := mergeStep_of_bytes p.2 hlarge (hcs p mem_cons_self) hstep
      fun v hv => hout v (mem_append_left _ hv)
    have hloop := ih (fun q hq => hcs q (mem_cons_of_mem p hq)) hloop
      fun v hv => hout v (mem_append_right _ hv)
    rw [cons_append, mergeLoop_cons, hstep, ok_bind, hloop]
    simp only [bind_assoc, pure_bind, map_append, append_assoc]

/-- The chunks of one weight, wherever they are. -/
theorem mergeLoop_weight (hpos : 0 < bucketSize) {rest : List (Chunk × Nat)}
    (hcs : cs.map (fun p => p.1.unplaced) = splitWeight bucketSize w) {out : List Weight} :
    mergeLoop bucketSize empty none (cs ++ rest) = .ok out ↔
      (∀ p ∈ cs, ChunkAligned bucketSize p.1 p.2) ∧
        ∃ outs, mergeLoop bucketSize empty none rest = .ok outs ∧
          out = (if 0 < w.nbytes then [w] else []) ++ outs := by
  by_cases hzero : 0 < w.nbytes
  swap
  · -- no byte, no chunk
    have hsplit : splitWeight bucketSize w = [] := by
      unfold splitWeight
      rw [CheckpointEngine.splitLoop_eq_nil (by rw [asBytes_nbytes]; omega), map_nil]
    rw [hsplit, map_eq_nil_iff] at hcs
    subst hcs
    rw [if_neg hzero]
    exact ⟨fun h => ⟨fun p hp => (by cases hp), out, h, rfl⟩, fun ⟨_, _, h, ho⟩ => ho ▸ h⟩
  rw [if_pos hzero]
  by_cases hsmall : w.nbytes ≤ bucketSize
  · have hsplit : splitWeight bucketSize w = [w.retype (w.asBytes.chunk 0 w.asBytes.nbytes)] := by
      unfold splitWeight
      rw [← asBytes_nbytes, CheckpointEngine.splitLoop_of_small (by rwa [asBytes_nbytes])
        (by rwa [asBytes_nbytes]), map_singleton]
    rw [hsplit, map_eq_singleton_iff] at hcs
    obtain ⟨⟨c, offset⟩, rfl, hc⟩ := hcs
    have hmem : c.unplaced ∈ splitWeight bucketSize w := by grind
    have hof := isOf_of_mem hmem
    have hdata : c.data = w.bytes := by
      have hslice : c.data = getSlice w.bytes 0 w.asBytes.nbytes := congrArg Chunk.data hc
      rw [hslice, getSlice_zero w.bytes (by rw [w.length_eq, asBytes_nbytes]; exact Nat.le_refl _)]
    have haligned : ChunkAligned bucketSize c offset ↔ w.dtype.itemsize ∣ offset := by
      unfold ChunkAligned
      rw [hof.nbytes, hof.dtype]
      exact ⟨fun h => h hsmall, fun h _ => h⟩
    rw [singleton_append, mergeLoop_cons, mergeStep_of_small hsmall hof hdata,
      bind_eq_ok, forall_mem_singleton]
    constructor
    · rintro ⟨r, hr, hrest⟩
      obtain ⟨v, hv, rfl⟩ := except_map_eq_ok.1 hr
      obtain ⟨hdvd, rfl⟩ := viewAs_eq_ok.1 hv
      obtain ⟨outs, houts, hout⟩ := bind_eq_ok.1 hrest
      exact ⟨haligned.2 hdvd, outs, houts, (Except.ok.inj hout).symm⟩
    · rintro ⟨hdvd, outs, houts, rfl⟩
      refine ⟨(none, [w]), except_map_eq_ok.2 ⟨w, viewAs_eq_ok.2 ⟨haligned.1 hdvd, rfl⟩, rfl⟩, ?_⟩
      exact bind_eq_ok.2 ⟨outs, houts, rfl⟩
  · -- a memory of its own: where the chunks are in their buckets does not matter
    have hlarge : bucketSize < w.nbytes := Nat.lt_of_not_le hsmall
    have hof : ∀ p ∈ cs, p.1.IsOf w := fun p hp => by
      have hmem : p.1.unplaced ∈ splitWeight bucketSize w := by grind
      exact isOf_of_mem hmem
    have hvacuous : ∀ p ∈ cs, ChunkAligned bucketSize p.1 p.2 := fun p hp hle => by
      rw [(hof p hp).nbytes] at hle
      exact absurd hle hsmall
    have hunplaced : (cs.map fun p => p.1.asBytes).map CheckpointEngine.Chunk.unplaced =
        CheckpointEngine.splitLoop bucketSize w.asBytes w.asBytes.nbytes 0 := by
      rw [← map_asBytes_splitWeight, ← hcs, map_map, map_map]
      rfl
    have hbytes : CheckpointEngine.mergeLoop bucketSize empty none (cs.map fun p => p.1.asBytes) =
        .ok (none, [w.asBytes]) := by
      refine CheckpointEngine.mergeLoop_of_unplaced ?_
      rw [hunplaced]
      exact CheckpointEngine.mergeLoop_weight hpos (by rwa [asBytes_nbytes])
    rw [mergeLoop_of_bytes hlarge hof hbytes fun v hv => mem_singleton.1 hv,
      bind_eq_ok]
    constructor
    · rintro ⟨outs, houts, hout⟩
      exact ⟨hvacuous, outs, houts, (Except.ok.inj hout).symm⟩
    · rintro ⟨-, outs, houts, rfl⟩
      exact ⟨outs, houts, rfl⟩

/-- What is put together of the chunks: the weights with a byte, if every small one can be viewed
where it is. -/
theorem mergeLoop_eq_ok (hpos : 0 < bucketSize) {ws : List Weight}
    (hcs : cs.map (fun p => p.1.unplaced) = splitWeightChunks bucketSize ws) {out : List Weight} :
    mergeLoop bucketSize empty none cs = .ok out ↔
      (∀ p ∈ cs, ChunkAligned bucketSize p.1 p.2) ∧ out = ws.filter fun w => 0 < w.nbytes := by
  induction ws generalizing cs out with
  | nil =>
    obtain rfl : cs = [] := map_eq_nil_iff.1 hcs
    exact ⟨fun h => ⟨(fun p hp => by cases hp), (Except.ok.inj h).symm⟩,
      fun h => congrArg Except.ok h.2.symm⟩
  | cons w ws ih =>
    have hcons : splitWeightChunks bucketSize (w :: ws) =
        splitWeight bucketSize w ++ splitWeightChunks bucketSize ws := flatMap_cons
    rw [hcons, map_eq_append_iff] at hcs
    obtain ⟨cs₁, cs₂, rfl, hcs₁, hcs₂⟩ := hcs
    rw [mergeLoop_weight hpos hcs₁, forall_mem_append, filter_cons]
    constructor
    · grind
    · rintro ⟨⟨haligned₁, haligned₂⟩, rfl⟩
      refine ⟨haligned₁, _, (ih hcs₂).2 ⟨haligned₂, rfl⟩, ?_⟩
      by_cases h : 0 < w.nbytes <;> simp [h]

end Verl.TypedWeights
