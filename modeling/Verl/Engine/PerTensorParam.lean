import Verl.Utils.MergedLora

/-! # The parameters that a rollout gets

`get_per_tensor_param` of the FSDP engine returns a generator.  A tensor of FSDP 1 is a copy, made
inside the merged context; a tensor of FSDP 2 is the storage of the parameter itself, and is read
when the consumer comes to it:

    FSDP 2:   load | backup | merge | state_dict | restore | offload |  ...  next()  ...  next()
                                        storage ->  W + d -> W                 W             W

* `Step`, `runs`: optimizer steps, and what happens between two of them. -/

namespace Verl.FsdpEngine

open Verl.FsdpLora List Function

/-! ## The engine -/

structure Engine (R : Type) where
  module : Module R
  /-- `hasattr(peft_model, "peft_config")`. -/
  lora : Bool
  mergeLora : Bool
  isOffloadParam : Bool
  /-- `replace_lora_wrapper`, by the target modules of the adapter. -/
  replaceLoraWrapper : String → String
  /-- `convert_weight_keys`, by the mapping of the model. -/
  convertWeightKey : String → String
  keys_nodup : (module.named.map fun p =>
    convertWeightKey (if lora then normalizePeftName p.1 else p.1)).Nodup

/-- The parameters, and the device they are on. -/
structure Actor (V : Type) where
  state : State V
  onGpu : Bool

/-- An item of a state dictionary: a value, or a storage. -/
inductive Tensor (V : Type)
  | copy (v : V)
  | storage (p generation : Nat)

variable {R V τ : Type}

def Tensor.read (s : State V) : Tensor V → V
  | .copy v => v
  | .storage p generation => s.data p generation

/-- Every parameter gets a new storage. -/
def State.move (s : State V) : State V where
  generation p := s.generation p + 1
  data p := Function.update (s.data p) (s.generation p + 1) (s.get p)
  merged := s.merged

/-- `load_fsdp_model_to_gpu` and `offload_fsdp_model_to_cpu`. -/
def Actor.toDevice (a : Actor V) (gpu : Bool) : Actor V :=
  if a.onGpu = gpu then a else { state := State.move a.state, onGpu := gpu }

/-- The post-hook of FSDP 1 clones. -/
def paramTensor (M : Module R) (s : State V) (p : Nat) : Tensor V :=
  match M.version with
  | .fsdp1 => .copy (s.get p)
  | .fsdp2 => .storage p (s.generation p)

/-- `state_dict()`. -/
def stateDict (M : Module R) (s : State V) : Dict (Tensor V) :=
  Dict.ofItems (M.named.map fun p => (p.1, paramTensor M s p.2))

def isLoraKey (name : String) : Bool :=
  pyIn "lora_".toList name.toList || pyIn ".adapter_".toList name.toList

def normalizePeftParamName (params : Dict τ) : Dict τ :=
  Dict.ofItems ((params.items.map fun p => (normalizePeftName p.1, p.2)).filter
    fun p => !isLoraKey p.1)

def mapKeys (f : String → String) (params : Dict τ) : Dict τ :=
  Dict.ofItems (params.items.map fun p => (f p.1, p.2))

/-- `collect_lora_params`: the adapter, or all else. -/
def collectLoraParams (M : Module R) (baseSyncDone : Bool) (s : State V) : Dict (Tensor V) :=
  if baseSyncDone then
    Dict.ofItems ((M.named.filter fun p => pyIn "lora_".toList p.1.toList).map fun p =>
      (without ".default" p.1, .copy (s.get p.2)))
  else
    Dict.ofItems (((innerItems M.named).filter fun p => !skips p.1).map fun p =>
      (innerKey p.1, .copy (s.get p.2)))

section Call

variable [AddGroup V] (deltaWeight : R → V → V → V) (E : Engine R)

/-- The dictionary before its keys are converted, and the actor. -/
def collectParams (baseSyncDone : Bool) (a : Actor V) : Except PyErr (Dict (Tensor V)) × Actor V :=
  if E.lora then
    if !E.mergeLora then
      let params := collectLoraParams E.module baseSyncDone a.state
      (.ok (if !baseSyncDone then mapKeys E.replaceLoraWrapper params else params), a)
    else
      let out := mergedLoraContext deltaWeight E.module true
        (fun s => .ok (normalizePeftParamName (stateDict E.module s))) a.state
      (out.1, { a with state := out.2 })
  else (.ok (stateDict E.module a.state), a)

/-- What the generator goes through, up to the rounding to `bfloat16`. -/
def getPerTensorParam (baseSyncDone : Bool) (a : Actor V) :
    Except PyErr (Dict (Tensor V)) × Actor V :=
  let out := collectParams deltaWeight E baseSyncDone (a.toDevice true)
  (out.1.map (mapKeys E.convertWeightKey),
    if E.isOffloadParam then out.2.toDevice false else out.2)

/-! ## Runs -/

inductive Between
  | toDevice (gpu : Bool)
  | call (baseSyncDone : Bool)

inductive Step (V : Type)
  | optimizer (values : Nat → V)
  | between (op : Between)

def Between.run (a : Actor V) : Between → Actor V
  | .toDevice gpu => a.toDevice gpu
  | .call baseSyncDone => (getPerTensorParam deltaWeight E baseSyncDone a).2

def Step.run (a : Actor V) : Step V → Actor V
  | .optimizer values => { a with state := { a.state with
      data := fun p => Function.update (a.state.data p) (a.state.generation p) (values p) } }
  | .between op => op.run deltaWeight E a

/-- A new actor: nothing is merged. -/
def fresh (values : Nat → V) (onGpu : Bool) : Actor V where
  state := { generation := fun _ => 0, data := fun p _ => values p, merged := fun _ => false }
  onGpu := onGpu

/-- A parameter of an adapter. -/
def adapters (M : Module R) : List Nat :=
  M.modules.flatMap fun m => m.lora.toList.flatMap fun l => [l.loraA, l.loraB]

/-- The key of a parameter. -/
def Engine.key (name : String) : String :=
  E.convertWeightKey (if E.lora then normalizePeftName name else name)

/-- What is drawn under a name after a call on `a`; each draw has a time of its own. -/
def drawn (baseSyncDone : Bool) (a : Actor V) (later : List Between) (key : String) : Option V :=
  match getPerTensorParam deltaWeight E baseSyncDone a with
  | (.ok params, a') =>
    (params.get? key).map (Tensor.read (later.foldl (Between.run deltaWeight E) a').state)
  | (.error _, _) => none

/-- Whenever a pair is drawn, it has the value of the time of the call. -/
structure DrawsRight (a : Actor V) : Prop where
  full : E.lora = false → ∀ baseSyncDone later, ∀ p ∈ E.module.named,
    drawn deltaWeight E baseSyncDone a later (E.key p.1) = some (a.state.get p.2)
  layer : E.lora = true → E.mergeLora = true → ∀ baseSyncDone later,
    ∀ m ∈ E.module.modules, ∀ l ∈ m.lora,
      drawn deltaWeight E baseSyncDone a later (E.key (weightName m.path ["base_layer"])) =
        some (l.weight deltaWeight a.state)
  other : E.lora = true → E.mergeLora = true → ∀ baseSyncDone later,
    ∀ p ∈ E.module.named, p.2 ∉ adapters E.module →
      (∀ m ∈ E.module.modules, ∀ l ∈ m.lora, p.2 ≠ l.base) →
      drawn deltaWeight E baseSyncDone a later (E.key p.1) = some (a.state.get p.2)

end Call

/-! ## Storages -/

/-- Only the current storages are written. -/
structure InPlace (s t : State V) : Prop where
  generation : t.generation = s.generation
  data : ∀ p g, g ≠ s.generation p → t.data p g = s.data p g

namespace InPlace

theorem refl (s : State V) : InPlace s s := ⟨rfl, fun _ _ _ => rfl⟩

theorem trans {s t u : State V} (hst : InPlace s t) (htu : InPlace t u) : InPlace s u := by
  refine ⟨htu.generation.trans hst.generation, fun p g hg => ?_⟩
  have hg' : g ≠ t.generation p := by rwa [hst.generation]
  exact (htu.data p g hg').trans (hst.data p g hg)

theorem copy_ (s : State V) (p : Nat) (v : V) : InPlace s (s.copy_ p v) := by
  refine ⟨rfl, fun q g hg => ?_⟩
  unfold State.copy_
  dsimp only
  by_cases hq : q = p
  · subst hq
    rw [update_self, update_of_ne hg]
  · rw [update_of_ne hq]

theorem setMerged (s : State V) (path : List String) (merged : Bool) :
    InPlace s (s.setMerged path merged) := ⟨rfl, fun _ _ _ => rfl⟩

theorem foldl {α : Type} {f : State V → α → State V} {xs : List α}
    (h : ∀ x ∈ xs, ∀ s, InPlace s (f s x)) (s : State V) : InPlace s (xs.foldl f s) :=
  List.foldlRecOn (motive := fun t : State V => InPlace s t) xs f (refl s)
    fun _ ht x hx => ht.trans (h x hx _)

section Merge

variable [AddGroup V] (deltaWeight : R → V → V → V)

theorem mergeOrUnmergeLora (modules : List (SubModule R)) (doMerge : Bool) (s : State V) :
    InPlace s (mergeOrUnmergeLora deltaWeight modules doMerge s) := by
  refine foldl (fun m _ s => ?_) s
  unfold mergeOrUnmergeModule
  split
  · exact refl s
  · split
    · exact (copy_ ..).trans (setMerged ..)
    · split
      · exact (copy_ ..).trans (setMerged ..)
      · exact refl s

theorem fsdpMergeUnmerge (M : Module R) (doMerge : Bool) (s : State V) :
    InPlace s (fsdpMergeUnmerge deltaWeight M doMerge s) := by
  unfold FsdpLora.fsdpMergeUnmerge
  split
  · exact mergeOrUnmergeLora deltaWeight _ doMerge s
  · refine foldl (fun m _ s => ?_) s
    split
    · exact mergeOrUnmergeLora deltaWeight _ doMerge s
    · exact refl s

end Merge

theorem restoreBaseModelWeights (M : Module R) (backup : Dict V) (s : State V) :
    InPlace s (restoreBaseModelWeights M backup s) := by
  refine foldl (fun p _ s => ?_) s
  unfold restoreParam
  split
  · exact copy_ ..
  · exact refl s

theorem cleanMergedLora (M : Module R) (s : State V) : InPlace s (cleanMergedLora M s) := by
  refine foldl (fun m _ s => ?_) s
  unfold cleanModule
  split
  · exact setMerged ..
  · exact refl s

end InPlace

@[simp] theorem get_move (s : State V) (p : Nat) : (State.move s).get p = s.get p :=
  update_self ..

theorem data_move {s : State V} {p g : Nat} (hg : g ≤ s.generation p) :
    (State.move s).data p g = s.data p g :=
  update_of_ne (by omega) ..

section

variable (a : Actor V) (gpu : Bool)
include a gpu

theorem get_toDevice (p : Nat) : (a.toDevice gpu).state.get p = a.state.get p := by
  unfold Actor.toDevice
  split
  · rfl
  · exact get_move a.state p

theorem merged_toDevice : (a.toDevice gpu).state.merged = a.state.merged := by
  unfold Actor.toDevice
  split <;> rfl

theorem generation_toDevice (p : Nat) : (a.toDevice gpu).state.generation p =
      if a.onGpu = gpu then a.state.generation p else a.state.generation p + 1 := by
  unfold Actor.toDevice
  split <;> rfl

theorem onGpu_toDevice : (a.toDevice gpu).onGpu = gpu := by
  unfold Actor.toDevice
  split
  · assumption
  · rfl

end

variable {M : Module R} {a : Actor V} {f : String → String}

theorem data_toDevice {p g : Nat} (hg : g ≤ a.state.generation p) (gpu : Bool) :
    (a.toDevice gpu).state.data p g = a.state.data p g := by
  unfold Actor.toDevice
  split
  · rfl
  · exact data_move hg

theorem delta_toDevice (deltaWeight : R → V → V → V) (l : Lora R) (a : Actor V) (gpu : Bool) :
    l.delta deltaWeight (a.toDevice gpu).state = l.delta deltaWeight a.state := by
  unfold Lora.delta
  rw [get_toDevice, get_toDevice]

/-- No layer is merged. -/
def Clear (M : Module R) (s : State V) : Prop :=
  ∀ m ∈ M.modules, ∀ l ∈ m.lora, s.merged m.path = false

theorem clear_toDevice (h : Clear M a.state) (gpu : Bool) :
    Clear M (a.toDevice gpu).state := by
  unfold Clear
  rw [merged_toDevice]
  exact h

/-! ## The dictionary -/

theorem get?_mapKeys_stateDict (hnodup : (M.named.map fun p => f p.1).Nodup) (s : State V) {p : String × Nat}
    (hp : p ∈ M.named) :
    (mapKeys f (stateDict M s)).get? (f p.1) = some (paramTensor M s p.2) := by
  have hnames : ((M.named.map fun p => (p.1, paramTensor M s p.2)).map Prod.fst).Nodup := by grind
  have hitems := get?_ofItems_map f hnodup (fun _ => true) (paramTensor M s) hp
    (v := paramTensor M s p.2)
  unfold mapKeys stateDict
  rw [Dict.items_ofItems hnames, map_map]
  rw [filter_true] at hitems
  exact hitems.2 ⟨rfl, rfl⟩

theorem get?_mapKeys_normalize (hnodup : (M.named.map fun p => f (normalizePeftName p.1)).Nodup) (s : State V)
    {p : String × Nat} (hp : p ∈ M.named) {v : Tensor V} :
    (mapKeys f (normalizePeftParamName (stateDict M s))).get? (f (normalizePeftName p.1)) = some v ↔
      isLoraKey (normalizePeftName p.1) = false ∧ v = paramTensor M s p.2 := by
  have hnames : ((M.named.map fun p => (p.1, paramTensor M s p.2)).map Prod.fst).Nodup := by grind
  have hfilter : (((M.named.map fun p => (p.1, paramTensor M s p.2)).map fun p =>
      (normalizePeftName p.1, p.2)).filter fun p => !isLoraKey p.1) =
      (M.named.filter fun p => !isLoraKey (normalizePeftName p.1)).map fun p =>
        (normalizePeftName p.1, paramTensor M s p.2) := by
    simp only [map_map, filter_map, comp_def]
  have hnormal : (M.named.map fun p => normalizePeftName p.1).Nodup := by grind
  have hkeys : (((M.named.filter fun p => !isLoraKey (normalizePeftName p.1)).map fun p =>
      (normalizePeftName p.1, paramTensor M s p.2)).map Prod.fst).Nodup := by grind
  have hitems := get?_ofItems_map (fun name => f (normalizePeftName name)) hnodup
    (fun name => !isLoraKey (normalizePeftName name)) (paramTensor M s) hp (v := v)
  unfold mapKeys normalizePeftParamName stateDict
  rw [Dict.items_ofItems hnames, hfilter, Dict.items_ofItems hkeys, map_map, ← Bool.not_eq_true']
  exact hitems

theorem read_fsdp1 (hversion : M.version = .fsdp1) (s t : State V) (p : Nat) :
    (paramTensor M s p).read t = s.get p := by
  unfold paramTensor
  rw [hversion]
  rfl

/-! ## One call -/

section Calls

variable [AddGroup V] (deltaWeight : R → V → V → V) {E : Engine R} {m : SubModule R} {l : Lora R}

/-- The parameters after the context of a call, if it has one. -/
def Engine.exit (E : Engine R) (s : State V) : State V :=
  if E.lora && E.mergeLora then
    (mergedLoraContext deltaWeight E.module true (fun _ => .ok ()) s).2
  else s

variable {p : String × Nat} {g : Nat} {v : V} {a : Actor V} {s : State V} {M : Module R}

theorem collectParams_snd (baseSyncDone : Bool) (a : Actor V) :
    (collectParams deltaWeight E baseSyncDone a).2 = { a with state := E.exit deltaWeight a.state } := by
  unfold collectParams Engine.exit
  cases E.lora <;> cases E.mergeLora <;> rfl

theorem inPlace_exit (s : State V) : InPlace s (E.exit deltaWeight s) := by
  unfold Engine.exit
  split
  · exact ((InPlace.fsdpMergeUnmerge deltaWeight _ true s).trans (.restoreBaseModelWeights ..)).trans
      (.cleanMergedLora ..)
  · exact .refl s

theorem generation_exit (s : State V) : (E.exit deltaWeight s).generation = s.generation :=
  (inPlace_exit deltaWeight s).generation

theorem clear_exit (h : Clear E.module s) : Clear E.module (E.exit deltaWeight s) := by
  unfold Engine.exit
  split
  · exact fun m hm l hl => merged_cleanMergedLora hm hl _
  · exact h

theorem get_exit_of_ne (hp : p ∈ E.module.named)
    (hbase : ∀ m ∈ E.module.modules, ∀ l ∈ m.lora, p.2 ≠ l.base) (s : State V) :
    (E.exit deltaWeight s).get p.2 = s.get p.2 := by
  unfold Engine.exit
  split
  · refine (get_cleanMergedLora _ _).trans ?_
    rw [get_restoreBaseModelWeights hp, get_fsdpMergeUnmerge deltaWeight hbase, ite_self]
  · rfl

/-- The base weight of a layer is not put back if its name is not in the backup. -/
def drifts (M : Module R) (m : SubModule R) : Bool :=
  M.covered m.path && !backsUp M (weightName m.path ["base_layer"])

theorem get_exit (hlora : E.lora = true) (hmerge : E.mergeLora = true)
    (hs : Clear E.module s) (hm : m ∈ E.module.modules) (hl : m.lora = some l) :
    (E.exit deltaWeight s).get l.base =
      if drifts E.module m then l.weight deltaWeight s else s.get l.base := by
  unfold Engine.exit drifts
  rw [hlora, hmerge]
  refine (get_cleanMergedLora _ _).trans ?_
  rw [get_restoreBaseModelWeights (E.module.base_mem m hm l hl),
    get_inside deltaWeight hm hl (hs m hm l hl)]
  cases E.module.covered m.path <;> cases backsUp E.module (weightName m.path ["base_layer"]) <;> rfl

theorem ne_base_of_mem_adapters {p : Nat} (hp : p ∈ adapters M) :
    ∀ m ∈ M.modules, ∀ l ∈ m.lora, p ≠ l.base := by
  rintro m hm l hl rfl
  obtain ⟨m', hm', hp⟩ := mem_flatMap.1 hp
  obtain ⟨l', hl', hp⟩ := mem_flatMap.1 hp
  have hl'' : m'.lora = some l' := Option.mem_toList.1 hl'
  have hmem : l.base ∈ l'.params := mem_cons_of_mem _ hp
  obtain rfl := M.eq_of_mem_params hm hl hm' hl'' mem_cons_self hmem
  rw [Option.mem_def.1 hl] at hl''
  cases hl''
  have hnodup := M.params_nodup_of_lora hm hl
  exact (nodup_cons.1 hnodup).1 hp

theorem mem_adapters (hm : m ∈ M.modules) (hl : m.lora = some l) :
    l.loraA ∈ adapters M ∧ l.loraB ∈ adapters M := by
  have hlist : l ∈ m.lora.toList := Option.mem_toList.2 hl
  exact ⟨mem_flatMap.2 ⟨m, hm, mem_flatMap.2 ⟨l, hlist, mem_cons_self⟩⟩,
    mem_flatMap.2 ⟨m, hm, mem_flatMap.2 ⟨l, hlist,
      mem_cons_of_mem _ mem_cons_self⟩⟩⟩

theorem delta_exit (hm : m ∈ E.module.modules) (hl : m.lora = some l) (s : State V) :
    l.delta deltaWeight (E.exit deltaWeight s) = l.delta deltaWeight s := by
  obtain ⟨hA, hB⟩ := mem_adapters hm hl
  unfold Lora.delta
  rw [get_exit_of_ne deltaWeight (E.module.loraB_mem m hm l hl) (ne_base_of_mem_adapters hB),
    get_exit_of_ne deltaWeight (E.module.loraA_mem m hm l hl) (ne_base_of_mem_adapters hA)]

/-! ## Between a call and a draw -/

/-- A call leaves a parameter as it is. -/
def Stable (E : Engine R) (s : State V) (p : Nat) : Prop :=
  E.lora = true → E.mergeLora = true → ∀ m ∈ E.module.modules, ∀ l ∈ m.lora, p = l.base →
    drifts E.module m = true → l.delta deltaWeight s = 0

theorem get_exit_of_stable (hs : Clear E.module s)
    (hp : p ∈ E.module.named) (h : Stable deltaWeight E s p.2) :
    (E.exit deltaWeight s).get p.2 = s.get p.2 := by
  by_cases hbase : ∀ m ∈ E.module.modules, ∀ l ∈ m.lora, p.2 ≠ l.base
  · exact get_exit_of_ne deltaWeight hp hbase s
  · push Not at hbase
    obtain ⟨m, hm, l, hl, heq⟩ := hbase
    by_cases hmerges : E.lora = true ∧ E.mergeLora = true
    · rw [heq, get_exit deltaWeight hmerges.1 hmerges.2 hs hm hl]
      split
      · rename_i hdrifts
        unfold Lora.weight
        rw [h hmerges.1 hmerges.2 m hm l hl heq hdrifts, add_zero]
      · rfl
    · unfold Engine.exit
      rw [if_neg (by simpa using hmerges)]

/-- What a draw of a parameter's storage relies on: the storage is an old one, or its parameter is
stable. -/
structure Holds (E : Engine R) (p g : Nat) (v : V) (a : Actor V) : Prop where
  clear : Clear E.module a.state
  generation : g ≤ a.state.generation p
  data : a.state.data p g = v
  stable : g = a.state.generation p → Stable deltaWeight E a.state p

theorem Holds.toDevice {p : Nat} (h : Holds deltaWeight E p g v a)
    (gpu : Bool) : Holds deltaWeight E p g v (a.toDevice gpu) where
  clear := clear_toDevice h.clear gpu
  generation := by
    have hle := h.generation
    rw [generation_toDevice]
    split <;> omega
  data := (data_toDevice h.generation gpu).trans h.data
  stable := by
    intro hg hlora hmerge m hm l hl heq hdrifts
    rw [delta_toDevice]
    refine h.stable ?_ hlora hmerge m hm l hl heq hdrifts
    have hle := h.generation
    rw [generation_toDevice] at hg
    split at hg <;> omega

section

variable (hp : p ∈ E.module.named) (h : Holds deltaWeight E p.2 g v a)
include hp h

theorem Holds.exit :
    Holds deltaWeight E p.2 g v { a with state := E.exit deltaWeight a.state } where
  clear := clear_exit deltaWeight h.clear
  generation := by
    rw [generation_exit]
    exact h.generation
  data := by
    have hwrite := inPlace_exit deltaWeight (E := E) a.state
    by_cases hg : g = a.state.generation p.2
    · have hget := get_exit_of_stable deltaWeight h.clear hp (h.stable hg)
      unfold State.get at hget
      rw [hwrite.generation, ← hg] at hget
      exact hget.trans h.data
    · exact (hwrite.data p.2 g hg).trans h.data
  stable := by
    intro hg hlora hmerge m hm l hl heq hdrifts
    rw [generation_exit] at hg
    rw [delta_exit deltaWeight hm hl]
    exact h.stable hg hlora hmerge m hm l hl heq hdrifts

theorem Holds.between (op : Between) : Holds deltaWeight E p.2 g v (op.run deltaWeight E a) := by
  cases op with
  | toDevice gpu => exact h.toDevice deltaWeight gpu
  | call baseSyncDone =>
    unfold Between.run getPerTensorParam
    dsimp only
    rw [collectParams_snd]
    have hcall := (h.toDevice deltaWeight true).exit deltaWeight hp
    split
    · exact hcall.toDevice deltaWeight false
    · exact hcall

theorem Holds.later (later : List Between) :
    Holds deltaWeight E p.2 g v (later.foldl (Between.run deltaWeight E) a) :=
  List.foldlRecOn (motive := Holds deltaWeight E p.2 g v) later _ h
    fun _ ha op _ => ha.between deltaWeight hp op

end

/-! ## What is drawn -/

theorem drawn_of_ok {params : Dict (Tensor V)} {baseSyncDone : Bool}
    (h : (collectParams deltaWeight E baseSyncDone (a.toDevice true)).1 = .ok params)
    (later : List Between) (key : String) :
    drawn deltaWeight E baseSyncDone a later key =
      ((mapKeys E.convertWeightKey params).get? key).map (Tensor.read (later.foldl
        (Between.run deltaWeight E) (getPerTensorParam deltaWeight E baseSyncDone a).2).state) := by
  unfold drawn getPerTensorParam
  dsimp only
  rw [h]
  rfl

theorem drawn_full (hlora : E.lora = false) (baseSyncDone : Bool) (a : Actor V)
    (later : List Between) (hp : p ∈ E.module.named) :
    drawn deltaWeight E baseSyncDone a later (E.key p.1) =
      some ((paramTensor E.module (a.toDevice true).state p.2).read (later.foldl
        (Between.run deltaWeight E) (getPerTensorParam deltaWeight E baseSyncDone a).2).state) := by
  have hok : (collectParams deltaWeight E baseSyncDone (a.toDevice true)).1 =
      .ok (stateDict E.module (a.toDevice true).state) := by
    unfold collectParams
    rw [hlora]
    rfl
  have hnodup := E.keys_nodup
  have hkey : E.key p.1 = E.convertWeightKey p.1 := by
    unfold Engine.key
    rw [hlora]
    rfl
  simp only [hlora] at hnodup
  rw [drawn_of_ok deltaWeight hok, hkey, get?_mapKeys_stateDict hnodup _ hp]
  rfl

/-- Inside the context of a call. -/
def inside (E : Engine R) (a : Actor V) : State V :=
  fsdpMergeUnmerge deltaWeight E.module true (a.toDevice true).state

theorem drawn_merged (hlora : E.lora = true) (hmerge : E.mergeLora = true) (baseSyncDone : Bool)
    (a : Actor V) (later : List Between) (hp : p ∈ E.module.named) :
    drawn deltaWeight E baseSyncDone a later (E.key p.1) = some v ↔
      isLoraKey (normalizePeftName p.1) = false ∧
      (paramTensor E.module (inside deltaWeight E a) p.2).read (later.foldl
        (Between.run deltaWeight E) (getPerTensorParam deltaWeight E baseSyncDone a).2).state = v := by
  have hok : (collectParams deltaWeight E baseSyncDone (a.toDevice true)).1 =
      .ok (normalizePeftParamName (stateDict E.module (inside deltaWeight E a))) := by
    unfold collectParams
    rw [hlora, hmerge]
    rfl
  have hnodup := E.keys_nodup
  have hkey : E.key p.1 = E.convertWeightKey (normalizePeftName p.1) := by
    unfold Engine.key
    rw [hlora]
    rfl
  simp only [hlora] at hnodup
  rw [drawn_of_ok deltaWeight hok, hkey, Option.map_eq_some_iff]
  constructor
  · rintro ⟨tensor, htensor, rfl⟩
    obtain ⟨hkept, rfl⟩ := (get?_mapKeys_normalize hnodup _ hp).1 htensor
    exact ⟨hkept, rfl⟩
  · rintro ⟨hkept, rfl⟩
    exact ⟨_, (get?_mapKeys_normalize hnodup _ hp).2 ⟨hkept, rfl⟩, rfl⟩

theorem holds_call (hclear : Clear E.module a.state) (baseSyncDone : Bool) {p : Nat}
    (hstable : E.isOffloadParam = true ∨ Stable deltaWeight E (a.toDevice true).state p) :
    Holds deltaWeight E p ((a.toDevice true).state.generation p)
      ((E.exit deltaWeight (a.toDevice true).state).get p)
      (getPerTensorParam deltaWeight E baseSyncDone a).2 := by
  have hloaded := clear_toDevice hclear true
  have hgeneration := congrFun (generation_exit deltaWeight (E := E) (a.toDevice true).state) p
  have hdata : (E.exit deltaWeight (a.toDevice true).state).data p
      ((a.toDevice true).state.generation p) =
        (E.exit deltaWeight (a.toDevice true).state).get p := by
    unfold State.get
    rw [hgeneration]
  unfold getPerTensorParam
  dsimp only
  rw [collectParams_snd]
  cases hoffload : E.isOffloadParam with
  | true =>
    have hgpu : ¬((a.toDevice true).onGpu = false) := by
      rw [onGpu_toDevice]
      decide
    have hmoved := generation_toDevice
      { a.toDevice true with state := E.exit deltaWeight (a.toDevice true).state } false p
    rw [if_neg hgpu] at hmoved
    dsimp only at hmoved
    rw [if_pos rfl]
    refine ⟨clear_toDevice (clear_exit deltaWeight hloaded) false, ?_, ?_, ?_⟩
    · omega
    · exact (data_toDevice (by dsimp only; omega) false).trans hdata
    · intro hg
      omega
  | false =>
    rw [if_neg Bool.false_ne_true]
    refine ⟨clear_exit deltaWeight hloaded, hgeneration.ge, hdata, ?_⟩
    intro _ hlora hmerge m hm l hl heq hdrifts
    rw [delta_exit deltaWeight hm hl]
    exact (hstable.resolve_left (by rw [hoffload]; decide)) hlora hmerge m hm l hl heq hdrifts

theorem weight_toDevice (a : Actor V) (gpu : Bool) (l : Lora R) :
    l.weight deltaWeight (a.toDevice gpu).state = l.weight deltaWeight a.state := by
  unfold Lora.weight
  rw [get_toDevice, delta_toDevice]

theorem read_fsdp2 (hversion : E.module.version = .fsdp2) (hclear : Clear E.module a.state)
    (baseSyncDone : Bool) (later : List Between) (hp : p ∈ E.module.named)
    (hs : s.generation = (a.toDevice true).state.generation)
    (hstable : E.isOffloadParam = true ∨ Stable deltaWeight E (a.toDevice true).state p.2) :
    (paramTensor E.module s p.2).read (later.foldl (Between.run deltaWeight E)
      (getPerTensorParam deltaWeight E baseSyncDone a).2).state =
        (E.exit deltaWeight (a.toDevice true).state).get p.2 := by
  have hholds := (holds_call deltaWeight hclear baseSyncDone hstable).later deltaWeight hp later
  unfold paramTensor
  rw [hversion, hs]
  exact hholds.data

theorem generation_inside (a : Actor V) :
    (inside deltaWeight E a).generation = (a.toDevice true).state.generation :=
  (InPlace.fsdpMergeUnmerge deltaWeight _ true _).generation

/-- When the merged weights arrive: no other name is taken for one of an adapter, and under FSDP 2 a
layer has nothing to add, or its base weight is not put back before the storage is left. -/
structure Arrives (E : Engine R) (s : State V) : Prop where
  names : ∀ p ∈ E.module.named, p.2 ∉ adapters E.module →
    isLoraKey (normalizePeftName p.1) = false
  deltas : E.module.version = .fsdp2 → ∀ m ∈ E.module.modules, ∀ l ∈ m.lora,
    l.delta deltaWeight s = 0 ∨ E.isOffloadParam = true ∧ drifts E.module m = true

theorem base_notMem_adapters (hm : m ∈ M.modules) (hl : m.lora = some l) : l.base ∉ adapters M :=
  fun hp => ne_base_of_mem_adapters hp m hm l hl rfl

theorem drawsRight_of_arrives (hclear : Clear E.module a.state)
    (h : E.lora = true → E.mergeLora = true → Arrives deltaWeight E a.state) :
    DrawsRight deltaWeight E a where
  full := by
    intro hlora baseSyncDone later p hp
    have hstable : Stable deltaWeight E (a.toDevice true).state p.2 := by
      intro hlora'
      rw [hlora] at hlora'
      cases hlora'
    rw [drawn_full deltaWeight hlora baseSyncDone a later hp]
    cases hversion : E.module.version with
    | fsdp1 => rw [read_fsdp1 hversion, get_toDevice]
    | fsdp2 =>
      have hloaded := clear_toDevice hclear true
      rw [read_fsdp2 deltaWeight hversion hclear baseSyncDone later hp rfl (.inr hstable),
        get_exit_of_stable deltaWeight hloaded hp hstable, get_toDevice]
  layer := by
    intro hlora hmerge baseSyncDone later m hm l hl
    have harrives := h hlora hmerge
    have hbase := E.module.base_mem m hm l hl
    have hloaded := clear_toDevice hclear true
    have hname := harrives.names _ hbase (base_notMem_adapters hm hl)
    rw [drawn_merged deltaWeight hlora hmerge baseSyncDone a later hbase]
    refine ⟨hname, ?_⟩
    cases hversion : E.module.version with
    | fsdp1 =>
      have hcovered : E.module.covered m.path = true := by
        unfold Module.covered
        rw [hversion]
      rw [read_fsdp1 hversion]
      refine (get_inside deltaWeight hm hl (hloaded m hm l hl)).trans ?_
      rw [if_pos hcovered, weight_toDevice]
    | fsdp2 =>
      have hexit := get_exit deltaWeight hlora hmerge hloaded hm hl
      rw [weight_toDevice, get_toDevice] at hexit
      rcases harrives.deltas hversion m hm l hl with hdelta | ⟨hoffload, hdrifts⟩
      · have hstable : Stable deltaWeight E (a.toDevice true).state l.base := by
          intro _ _ m' hm' l' hl' heq _
          have hmem : l.base ∈ l'.params := heq ▸ mem_cons_self
          obtain rfl := E.module.eq_of_mem_params hm hl hm' hl' mem_cons_self hmem
          rw [Option.mem_def.1 hl] at hl'
          cases hl'
          rw [delta_toDevice, hdelta]
        have hweight : l.weight deltaWeight a.state = a.state.get l.base := by
          unfold Lora.weight
          rw [hdelta, add_zero]
        rw [read_fsdp2 deltaWeight hversion hclear baseSyncDone later hbase
          (generation_inside deltaWeight a) (.inr hstable), hexit, hweight, ite_self]
      · rw [read_fsdp2 deltaWeight hversion hclear baseSyncDone later hbase
          (generation_inside deltaWeight a) (.inl hoffload), hexit, if_pos hdrifts]
  other := by
    intro hlora hmerge baseSyncDone later p hp hadapter hbase
    rw [drawn_merged deltaWeight hlora hmerge baseSyncDone a later hp]
    refine ⟨(h hlora hmerge).names p hp hadapter, ?_⟩
    cases hversion : E.module.version with
    | fsdp1 =>
      rw [read_fsdp1 hversion]
      exact (get_fsdpMergeUnmerge deltaWeight hbase true _).trans (get_toDevice a true p.2)
    | fsdp2 =>
      have hstable : Stable deltaWeight E (a.toDevice true).state p.2 :=
        fun _ _ m hm l hl heq => absurd heq (hbase m hm l hl)
      rw [read_fsdp2 deltaWeight hversion hclear baseSyncDone later hp
        (generation_inside deltaWeight a) (.inr hstable),
        get_exit_of_ne deltaWeight hp hbase, get_toDevice]

theorem call_snd (hoffload : E.isOffloadParam = false) (baseSyncDone : Bool) (a : Actor V) :
    (getPerTensorParam deltaWeight E baseSyncDone a).2 =
      { a.toDevice true with state := E.exit deltaWeight (a.toDevice true).state } := by
  unfold getPerTensorParam
  dsimp only
  rw [collectParams_snd, if_neg (by rw [hoffload]; decide)]

theorem read_twice (hversion : E.module.version = .fsdp2) (hoffload : E.isOffloadParam = false)
    (a : Actor V) (p : Nat) :
    (paramTensor E.module (inside deltaWeight E a) p).read ([Between.call true].foldl
      (Between.run deltaWeight E) (getPerTensorParam deltaWeight E true a).2).state =
        (E.exit deltaWeight (E.exit deltaWeight (a.toDevice true).state)).get p := by
  have hloaded : Actor.toDevice
      { a.toDevice true with state := E.exit deltaWeight (a.toDevice true).state } true =
      { a.toDevice true with state := E.exit deltaWeight (a.toDevice true).state } := by
    exact if_pos (onGpu_toDevice a true)
  show (paramTensor E.module (inside deltaWeight E a) p).read (getPerTensorParam deltaWeight E true
    (getPerTensorParam deltaWeight E true a).2).2.state = _
  rw [call_snd deltaWeight hoffload, call_snd deltaWeight hoffload, hloaded]
  unfold paramTensor State.get
  rw [hversion, generation_exit, generation_exit]
  unfold inside
  rw [(InPlace.fsdpMergeUnmerge deltaWeight _ true _).generation]
  rfl

theorem arrives_of_drawsRight (hclear : Clear E.module a.state)
    (h : DrawsRight deltaWeight E a) (hlora : E.lora = true) (hmerge : E.mergeLora = true) :
    Arrives deltaWeight E a.state where
  names := by
    intro p hp hadapter
    by_cases hbase : ∀ m ∈ E.module.modules, ∀ l ∈ m.lora, p.2 ≠ l.base
    · have hdrawn := h.other hlora hmerge true [] p hp hadapter hbase
      exact ((drawn_merged deltaWeight hlora hmerge true a [] hp).1 hdrawn).1
    · push Not at hbase
      obtain ⟨m, hm, l, hl, heq⟩ := hbase
      have hmem := E.module.base_mem m hm l hl
      obtain rfl := inj_on_of_nodup_map E.module.params_nodup hp hmem heq
      have hdrawn := h.layer hlora hmerge true [] m hm l hl
      exact ((drawn_merged deltaWeight hlora hmerge true a [] hmem).1 hdrawn).1
  deltas := by
    intro hversion m hm l hl
    have hmem := E.module.base_mem m hm l hl
    have hloaded := clear_toDevice hclear true
    have hexit := get_exit deltaWeight hlora hmerge hloaded hm hl
    rw [weight_toDevice, get_toDevice] at hexit
    by_cases hdrifts : drifts E.module m = true
    · rw [if_pos hdrifts] at hexit
      by_cases hoffload : E.isOffloadParam = true
      · exact .inr ⟨hoffload, hdrifts⟩
      · rw [Bool.not_eq_true] at hoffload
        have hdrawn := h.layer hlora hmerge true [.call true] m hm l hl
        have hread := ((drawn_merged deltaWeight hlora hmerge true a _ hmem).1 hdrawn).2
        have hagain := get_exit deltaWeight hlora hmerge (clear_exit deltaWeight hloaded) hm hl
        rw [read_twice deltaWeight hversion hoffload, hagain, if_pos hdrifts] at hread
        unfold Lora.weight at hread hexit
        rw [hexit, delta_exit deltaWeight hm hl, delta_toDevice] at hread
        exact .inl (add_eq_left.1 hread)
    · have hstable : Stable deltaWeight E (a.toDevice true).state l.base := by
        intro _ _ m' hm' l' hl' heq hdrifts'
        have hmem' : l.base ∈ l'.params := heq ▸ mem_cons_self
        obtain rfl := E.module.eq_of_mem_params hm hl hm' hl' mem_cons_self hmem'
        exact absurd hdrifts' hdrifts
      have hdrawn := h.layer hlora hmerge true [] m hm l hl
      have hread := ((drawn_merged deltaWeight hlora hmerge true a _ hmem).1 hdrawn).2
      rw [read_fsdp2 deltaWeight hversion hclear true [] hmem (generation_inside deltaWeight a)
        (.inr hstable), hexit, if_neg hdrifts] at hread
      exact .inl (add_eq_left.1 hread.symm)

/-! ## Whole runs -/

theorem clear_step (h : Clear E.module a.state) (step : Step V) :
    Clear E.module (step.run deltaWeight E a).state := by
  cases step with
  | optimizer values => exact h
  | between op =>
    cases op with
    | toDevice gpu => exact clear_toDevice h gpu
    | call baseSyncDone =>
      show Clear E.module (getPerTensorParam deltaWeight E baseSyncDone a).2.state
      have hcall := clear_exit deltaWeight (clear_toDevice h true)
      unfold getPerTensorParam
      dsimp only
      rw [collectParams_snd]
      split
      · exact clear_toDevice hcall false
      · exact hcall

/-- After any run, a call on full weights is right, and one on merged weights exactly if they
arrive. -/
theorem drawsRight_iff (E : Engine R) (values : Nat → V) (onGpu : Bool) (history : List (Step V)) :
    DrawsRight deltaWeight E (history.foldl (Step.run deltaWeight E) (fresh values onGpu)) ↔
      (E.lora = true → E.mergeLora = true →
        Arrives deltaWeight E
          (history.foldl (Step.run deltaWeight E) (fresh values onGpu)).state) := by
  have hclear : Clear E.module
      (history.foldl (Step.run deltaWeight E) (fresh values onGpu)).state :=
    List.foldlRecOn (motive := fun a : Actor V => Clear E.module a.state) history _
      (fun _ _ _ _ => rfl) fun _ ha step _ => clear_step deltaWeight ha step
  exact ⟨arrives_of_drawsRight deltaWeight hclear, drawsRight_of_arrives deltaWeight hclear⟩

end Calls

/-- Merged adapters on the model with layer 0 wrapped, under FSDP 2. -/
def mergedEngine : Engine Int where
  module := lmHeadModule
  lora := true
  mergeLora := true
  isOffloadParam := false
  replaceLoraWrapper := id
  convertWeightKey := id
  keys_nodup := by decide

/-- `q_proj` arrives as `5`, and not as `5 + 3 * 2 * 1`. -/
theorem mergedEngine_draws_base :
    ¬ ∀ (E : Engine Int) (values : Nat → Int) (onGpu : Bool) (history : List (Step Int)),
      DrawsRight (fun scaling b a => scaling * (b * a)) E
        (history.foldl (Step.run (fun scaling b a => scaling * (b * a)) E)
          (fresh values onGpu)) := by
  intro h
  have hright := h mergedEngine (fun p => [5, 1, 2, 7, 1, 2].getD p 0) true []
  have hdrawn := hright.layer rfl rfl true []
    ⟨["base_model", "model", "layers", "0", "q_proj"], false, [("base_layer.weight", 0),
      ("lora_A.default.weight", 1), ("lora_B.default.weight", 2)], some ⟨0, 1, 2, 3⟩⟩
    (by simp [mergedEngine, lmHeadModule]) ⟨0, 1, 2, 3⟩ rfl
  have hvalue : drawn (fun scaling b a : Int => scaling * (b * a)) mergedEngine true
      (fresh (fun p => [5, 1, 2, 7, 1, 2].getD p 0) true) []
      (mergedEngine.key (weightName ["base_model", "model", "layers", "0", "q_proj"]
        ["base_layer"])) = some 5 := by decide
  exact absurd (hvalue.symm.trans hdrawn) (by decide)

end Verl.FsdpEngine
