import Verl.Utils.LoraModule

/-! # Merged weights, and what is there after

`merged_lora_context` and `collect_merged_lora_params` merge the LoRA layers, look at the weights and
put back what was there.  There are three ways to put it back: the layers are unmerged, the weights
are copied from a backup of the named parameters, or from one of the LoRA layers.  The flags of the
last two are just cleared.

* `mergedLoraContext`, `collectMergedLoraParams`.
* `MergesOnce`: any number of uses one after the other show `W + scaling * B * A`, and leave all as it
  was.
* `view_exit`: a layer after a context.
* `mergesOnce_iff`: this comes down to one condition on each LoRA layer.  Under FSDP 2 a layer in no
  wrapped submodule is not merged; and what has `lora` in its name is not in the backup. -/

namespace Verl.FsdpLora

open List

variable {R V β : Type}

/-! ## Backups -/

/-- The wrapper of FSDP 1 is no `PeftModel`. -/
def backsUp (M : Module R) (name : String) : Bool :=
  match M.version with
  | .fsdp1 => true
  | .fsdp2 => !pyIn "lora".toList (name.toList.map Char.toLower)

/-- `backup_base_model_weights`. -/
def backupBaseModelWeights (M : Module R) (s : State V) : Dict V :=
  Dict.ofItems ((M.named.filter fun p => backsUp M p.1).map fun p => (p.1, s.get p.2))

def restoreParam (backup : Dict V) (s : State V) (p : String × Nat) : State V :=
  match backup.get? p.1 with
  | some v => s.copy_ p.2 v
  | none => s

def restoreBaseModelWeights (M : Module R) (backup : Dict V) (s : State V) : State V :=
  M.named.foldl (restoreParam backup) s

def cleanModule (s : State V) (m : SubModule R) : State V :=
  match m.lora with
  | some _ => s.setMerged m.path false
  | none => s

/-- `_clean_merged_lora_`. -/
def cleanMergedLora (M : Module R) (s : State V) : State V := M.modules.foldl cleanModule s

/-- `_backup_base_weights`, by the names of `named_modules()`. -/
def backupBaseWeights (M : Module R) (s : State V) : List (List String × V) :=
  M.modules.filterMap fun m => m.lora.map fun l => (m.path, s.get l.base)

def restoreModule (backups : List (List String × V)) (s : State V) (m : SubModule R) : State V :=
  match m.lora, backups.lookup m.path with
  | some l, some v => s.copy_ l.base v
  | _, _ => s

/-- `_restore_base_weights`. -/
def restoreBaseWeights (M : Module R) (backups : List (List String × V)) (s : State V) : State V :=
  cleanMergedLora M (M.modules.foldl (restoreModule backups) s)

/-! ## The context, and the dictionary -/

section Context

variable [AddGroup V] (deltaWeight : R → V → V → V) (M : Module R)

/-- `merged_lora_context` around a body that reads the parameters and may raise. -/
def mergedLoraContext (backupAdapters : Bool) (body : State V → Except PyErr β) (s : State V) :
    Except PyErr β × State V :=
  let backup := if backupAdapters then some (backupBaseModelWeights M s) else none
  let inside := fsdpMergeUnmerge deltaWeight M true s
  (body inside,
    match backup with
    | some backup => cleanMergedLora M (restoreBaseModelWeights M backup inside)
    | none => fsdpMergeUnmerge deltaWeight M false inside)

def skips (name : String) : Bool :=
  ["_flat_param", "lora_"].any fun x => pyIn x.toList name.toList

def collectMergedLoraParams (s : State V) : Dict V × State V :=
  match M.version with
  | .fsdp1 =>
    let backups := backupBaseWeights M s
    let merged := mergeOrUnmergeLora deltaWeight M.modules true s
    let params := ((innerItems M.named).filter fun p => !skips p.1).map fun p =>
      (innerKey p.1, merged.get p.2)
    (Dict.ofItems params, restoreBaseWeights M backups merged)
  | .fsdp2 =>
    let backup := backupBaseModelWeights M s
    let merged := fsdpMergeUnmerge deltaWeight M true s
    let params := (M.named.filter fun p => !skips p.1).map fun p => (cleanKey p.1, merged.get p.2)
    (Dict.ofItems params, cleanMergedLora M (restoreBaseModelWeights M backup merged))

/-- One use of the two. -/
inductive Use (V : Type)
  | context (backupAdapters : Bool) (body : State V → Except PyErr Unit)
  | collect

def Use.run (s : State V) : Use V → State V
  | .context backupAdapters body => (mergedLoraContext deltaWeight M backupAdapters body s).2
  | .collect => (collectMergedLoraParams deltaWeight M s).2

/-- A layer's weight with its adapter, once. -/
def Lora.weight (l : Lora R) (s : State V) : V := s.get l.base + l.delta deltaWeight s

/-- The name of a LoRA layer's weight when `collect_merged_lora_params` comes to it. -/
def layerName (path : List String) : String :=
  match M.version with
  | .fsdp1 => String.ofList ((weightName path ["base_layer"]).toList.drop "base_model.model.".length)
  | .fsdp2 => weightName path ["base_layer"]

/-- The name it has in the dictionary. -/
def layerKey (path : List String) : String :=
  match M.version with
  | .fsdp1 => innerKey (layerName M path)
  | .fsdp2 => cleanKey (layerName M path)

/-- All parameters and flags are what they were. -/
structure Kept (s t : State V) : Prop where
  get : ∀ p ∈ M.named, t.get p.2 = s.get p.2
  merged : ∀ m ∈ M.modules, m.lora.isSome = true → t.merged m.path = s.merged m.path

/-- After any uses all is as before, and the next one shows each layer with its adapter. -/
structure MergesOnce (s : State V) : Prop where
  kept : ∀ uses : List (Use V), Kept M s (uses.foldl (Use.run deltaWeight M) s)
  context : ∀ (uses : List (Use V)) (backupAdapters : Bool),
    ∀ m ∈ M.modules, ∀ l ∈ m.lora,
      (mergedLoraContext deltaWeight M backupAdapters (fun inside => .ok (inside.get l.base))
        (uses.foldl (Use.run deltaWeight M) s)).1 = .ok (l.weight deltaWeight s)
  collect : ∀ uses : List (Use V), ∀ m ∈ M.modules, ∀ l ∈ m.lora,
    (collectMergedLoraParams deltaWeight M (uses.foldl (Use.run deltaWeight M) s)).1.get?
      (layerKey M m.path) = some (l.weight deltaWeight s)

end Context

/-! ## What is put back -/

section Restore

variable {M : Module R} {m : SubModule R} {l : Lora R}

variable (s : State V) (backup : Dict V) {items : List (String × Nat)} {name : String}

theorem get_restoreParam (s : State V) (p : String × Nat) (q : Nat) :
    (restoreParam backup s p).get q =
      if q = p.2 then (backup.get? p.1).getD (s.get q) else s.get q := by
  unfold restoreParam
  cases backup.get? p.1 with
  | none => exact (ite_self _).symm
  | some v => exact State.get_copy_ s p.2 q v

theorem get_foldl_restoreParam (hnodup : (items.map Prod.snd).Nodup) {p : String × Nat} (hp : p ∈ items) (s : State V) :
    (items.foldl (restoreParam backup) s).get p.2 = (backup.get? p.1).getD (s.get p.2) := by
  induction items generalizing s with
  | nil => cases hp
  | cons item items ih =>
    rw [map_cons, nodup_cons] at hnodup
    rw [foldl_cons]
    rcases mem_cons.1 hp with rfl | hp
    · -- no later item is the same parameter
      have hkeep : (items.foldl (restoreParam backup) (restoreParam backup s p)).get p.2 =
          (restoreParam backup s p).get p.2 := by
        refine List.foldlRecOn (motive := fun t : State V =>
          t.get p.2 = (restoreParam backup s p).get p.2) items _ rfl ?_
        intro t ht q hq
        have hne : p.2 ≠ q.2 := fun heq => hnodup.1 (heq ▸ mem_map_of_mem (f := Prod.snd) hq)
        rw [get_restoreParam, if_neg hne, ht]
      rw [hkeep, get_restoreParam, if_pos rfl]
    · have hne : p.2 ≠ item.2 := fun heq => hnodup.1 (heq ▸ mem_map_of_mem (f := Prod.snd) hp)
      rw [ih hnodup.2 hp, get_restoreParam, if_neg hne]

theorem get?_backupBaseModelWeights {p : Nat} (h : (name, p) ∈ M.named) (s : State V) :
    (backupBaseModelWeights M s).get? name = if backsUp M name then some (s.get p) else none := by
  have hnodup : (((M.named.filter fun p => backsUp M p.1).map
      fun p => (p.1, s.get p.2)).map Prod.fst).Nodup := by
    rw [map_map]
    exact M.names_nodup.sublist (filter_sublist.map _)
  unfold backupBaseModelWeights
  split
  · rename_i hbacked
    rw [Dict.get?_ofItems_eq_some hnodup]
    exact mem_map.2 ⟨(name, p), mem_filter.2 ⟨h, hbacked⟩, rfl⟩
  · rename_i hbacked
    rw [Option.eq_none_iff_forall_ne_some]
    intro v hv
    rw [Dict.get?_ofItems_eq_some hnodup] at hv
    obtain ⟨q, hq, heq⟩ := mem_map.1 hv
    cases heq
    exact hbacked (mem_filter.1 hq).2

theorem get_restoreBaseModelWeights {p : Nat} (h : (name, p) ∈ M.named) (s t : State V) :
    (restoreBaseModelWeights M (backupBaseModelWeights M s) t).get p =
      if backsUp M name then s.get p else t.get p := by
  have hget := get_foldl_restoreParam (backupBaseModelWeights M s) M.params_nodup h t
  rw [get?_backupBaseModelWeights h] at hget
  refine hget.trans ?_
  cases backsUp M name <;> rfl

theorem get_cleanMergedLora (p : Nat) : (cleanMergedLora M s).get p = s.get p := by
  refine List.foldlRecOn (motive := fun t : State V => t.get p = s.get p) M.modules _ rfl ?_
  intro t ht m _
  unfold cleanModule
  split
  · exact ht
  · exact ht

theorem merged_cleanMergedLora (hm : m ∈ M.modules) (hl : m.lora = some l) (s : State V) :
    (cleanMergedLora M s).merged m.path = false := by
  have hstep : ∀ m' ∈ M.modules, ∀ t : State V, (cleanModule t m').merged m.path =
      if m'.path == m.path then false else t.merged m.path := by
    intro m' hm' t
    unfold cleanModule
    by_cases hpath : m'.path = m.path
    · obtain rfl := M.eq_of_path_eq hm hm' hpath
      rw [hl]
      simp [State.merged_setMerged]
    · rw [if_neg (by simpa using hpath)]
      split
      · rw [State.merged_setMerged, if_neg (Ne.symm hpath)]
      · rfl
  have hany : (M.modules.any fun m' => m'.path == m.path) = true :=
    any_eq_true.2 ⟨m, hm, beq_self_eq_true _⟩
  have hfold := foldl_of_idempotent (fun t : State V => t.merged m.path) (g := fun _ => false)
    (fun _ => rfl) hstep s
  rw [hany] at hfold
  exact hfold

theorem get_foldl_restoreModule (hm : m ∈ M.modules) (hl : m.lora = some l) (s t : State V) :
    (M.modules.foldl (restoreModule (backupBaseWeights M s)) t).get l.base = s.get l.base := by
  have hlookup : ∀ m' ∈ M.modules, ∀ l' ∈ m'.lora,
      (backupBaseWeights M s).lookup m'.path = some (s.get l'.base) := by
    intro m' hm' l' hl'
    cases hv : (backupBaseWeights M s).lookup m'.path with
    | none =>
      rw [lookup_eq_none_iff] at hv
      have hmem : (m'.path, s.get l'.base) ∈ backupBaseWeights M s :=
        mem_filterMap.2 ⟨m', hm', by rw [Option.mem_def.1 hl']; rfl⟩
      exact absurd rfl (bne_iff_ne.1 (hv _ hmem))
    | some v =>
      obtain ⟨before, after, heq, -⟩ := lookup_eq_some_iff.1 hv
      have hmem : (m'.path, v) ∈ backupBaseWeights M s := by grind
      obtain ⟨m'', hm'', heq⟩ := mem_filterMap.1 hmem
      obtain ⟨l'', hl'', heq⟩ := Option.map_eq_some_iff.1 heq
      obtain ⟨hpath, rfl⟩ := Prod.mk.inj heq
      obtain rfl := M.eq_of_path_eq hm' hm'' hpath
      rw [Option.mem_def.1 hl'] at hl''
      cases hl''
      rfl
  have hstep : ∀ m' ∈ M.modules, ∀ t : State V,
      (restoreModule (backupBaseWeights M s) t m').get l.base =
        if m'.path == m.path then s.get l.base else t.get l.base := by
    intro m' hm' t
    unfold restoreModule
    by_cases hpath : m'.path = m.path
    · obtain rfl := M.eq_of_path_eq hm hm' hpath
      rw [hl, hlookup m' hm l hl]
      simp
    · rw [if_neg (by simpa using hpath)]
      split
      · rename_i l' v hl' _
        have hne : l.base ≠ l'.base := by
          intro heq
          have hbase : l.base ∈ l'.params := heq ▸ mem_cons_self
          exact hpath (congrArg _ (M.eq_of_mem_params hm hl hm' hl' mem_cons_self hbase))
        rw [State.get_copy_, if_neg hne]
      · rfl
  have hany : (M.modules.any fun m' => m'.path == m.path) = true :=
    any_eq_true.2 ⟨m, hm, beq_self_eq_true _⟩
  have hfold := foldl_of_idempotent (fun t : State V => t.get l.base) (g := fun _ => s.get l.base)
    (fun _ => rfl) hstep t
  rw [hany] at hfold
  exact hfold

theorem get_foldl_restoreModule_of_ne {p : Nat} (hp : ∀ m ∈ M.modules, ∀ l ∈ m.lora, p ≠ l.base)
    (backups : List (List String × V)) (t : State V) :
    (M.modules.foldl (restoreModule backups) t).get p = t.get p := by
  refine List.foldlRecOn (motive := fun u : State V => u.get p = t.get p) M.modules _ rfl ?_
  intro u hu m hm
  unfold restoreModule
  split
  · rename_i l v hl _
    rw [State.get_copy_, if_neg (hp m hm l hl), hu]
  · exact hu

theorem Kept.refl : Kept M s s := ⟨fun _ _ => rfl, fun _ _ _ => rfl⟩

theorem Kept.trans {s t u : State V} (hst : Kept M s t) (htu : Kept M t u) : Kept M s u :=
  ⟨fun p hp => (htu.get p hp).trans (hst.get p hp),
    fun m hm hlora => (htu.merged m hm hlora).trans (hst.merged m hm hlora)⟩

theorem Kept.delta_eq (deltaWeight : R → V → V → V) {s t : State V} (h : Kept M s t) (hm : m ∈ M.modules) (hl : m.lora = some l) :
    l.delta deltaWeight t = l.delta deltaWeight s := by
  unfold Lora.delta
  rw [h.get _ (M.loraB_mem m hm l hl), h.get _ (M.loraA_mem m hm l hl)]

/-- An item of a dictionary that is made of some parameters, under names that are different. -/
theorem get?_ofItems_map (key : String → String) (hnodup : (items.map fun p => key p.1).Nodup)
    (keep : String → Bool) (value : Nat → V) {p : String × Nat} (hp : p ∈ items) {v : V} :
    (Dict.ofItems ((items.filter fun q => keep q.1).map fun q => (key q.1, value q.2))).get?
      (key p.1) = some v ↔ keep p.1 = true ∧ v = value p.2 := by
  have hkeys : (((items.filter fun q => keep q.1).map fun q => (key q.1, value q.2)).map
      Prod.fst).Nodup := by grind
  rw [Dict.get?_ofItems_eq_some hkeys, mem_map]
  constructor
  · rintro ⟨q, hq, heq⟩
    obtain ⟨hkey, rfl⟩ := Prod.mk.inj heq
    obtain ⟨hmem, hkeep⟩ := mem_filter.1 hq
    obtain rfl : q = p := inj_on_of_nodup_map hnodup hmem hp hkey
    exact ⟨hkeep, rfl⟩
  · grind

end Restore

/-! ## One use -/

section Uses

variable [AddGroup V] (deltaWeight : R → V → V → V) {M : Module R} {m : SubModule R} {l : Lora R}
  {s t : State V}

theorem View.unmerge_merge {v : View V} (h : v.merged = false) (scaling : R) :
    (v.step deltaWeight scaling true).step deltaWeight scaling false = v := by
  obtain ⟨base, loraA, loraB, merged⟩ := v
  cases h
  have hbase : base + deltaWeight scaling loraB loraA - deltaWeight scaling loraB loraA = base :=
    add_sub_cancel_right _ _
  exact congrArg (fun base => (⟨base, loraA, loraB, false⟩ : View V)) hbase

section

variable (hm : m ∈ M.modules) (hl : m.lora = some l) (hmerged : s.merged m.path = false)
include hm hl hmerged

theorem get_inside : (fsdpMergeUnmerge deltaWeight M true s).get l.base =
      if M.covered m.path then l.weight deltaWeight s else s.get l.base := by
  have hview := congrArg View.base (view_fsdpMergeUnmerge deltaWeight hm hl true s)
  refine hview.trans ?_
  split
  · unfold View.step
    rw [if_pos (by simp [State.view, hmerged])]
    rfl
  · rfl

theorem view_exit :
    (fsdpMergeUnmerge deltaWeight M false (fsdpMergeUnmerge deltaWeight M true s)).view m.path l =
      s.view m.path l := by
  rw [view_fsdpMergeUnmerge deltaWeight hm hl, view_fsdpMergeUnmerge deltaWeight hm hl]
  split
  · exact View.unmerge_merge deltaWeight (by exact hmerged) l.scaling
  · rfl

end

/-- The condition on a layer: it is merged where it has to be, and put back. -/
structure Served (M : Module R) (s : State V) (m : SubModule R) (l : Lora R) : Prop where
  unmerged : s.merged m.path = false
  merges : l.delta deltaWeight s = 0 ∨
    M.covered m.path = true ∧ backsUp M (weightName m.path ["base_layer"]) = true
  collects : skips (layerName M m.path) = false

theorem Kept.weight_eq (h : Kept M s t) (hm : m ∈ M.modules) (hl : m.lora = some l) :
    l.weight deltaWeight t = l.weight deltaWeight s := by
  unfold Lora.weight
  rw [h.delta_eq deltaWeight hm hl, h.get _ (M.base_mem m hm l hl)]

theorem Served.of_kept (hserved : Served deltaWeight M s m l) (h : Kept M s t)
    (hm : m ∈ M.modules) (hl : m.lora = some l) : Served deltaWeight M t m l where
  unmerged := by
    rw [h.merged m hm (by rw [hl]; rfl)]
    exact hserved.unmerged
  merges := by
    rw [h.delta_eq deltaWeight hm hl]
    exact hserved.merges
  collects := hserved.collects

theorem Served.get_inside (h : Served deltaWeight M s m l) (hm : m ∈ M.modules)
    (hl : m.lora = some l) :
    (fsdpMergeUnmerge deltaWeight M true s).get l.base = l.weight deltaWeight s := by
  rw [FsdpLora.get_inside deltaWeight hm hl h.unmerged]
  split
  · rfl
  · rename_i hcovered
    rcases h.merges with hdelta | ⟨hcov, -⟩
    · unfold Lora.weight
      rw [hdelta, add_zero]
    · exact absurd hcov hcovered

section

variable (hserved : ∀ m ∈ M.modules, ∀ l ∈ m.lora, Served deltaWeight M s m l)
include hserved

theorem get_restored {p : String × Nat} (hp : p ∈ M.named) :
    (restoreBaseModelWeights M (backupBaseModelWeights M s)
      (fsdpMergeUnmerge deltaWeight M true s)).get p.2 = s.get p.2 := by
  rw [get_restoreBaseModelWeights hp]
  split
  · rfl
  · rename_i hbacked
    by_cases hbase : ∀ m ∈ M.modules, ∀ l ∈ m.lora, p.2 ≠ l.base
    · exact get_fsdpMergeUnmerge deltaWeight hbase true s
    · push Not at hbase
      obtain ⟨m, hm, l, hl, heq⟩ := hbase
      have hname : p = (weightName m.path ["base_layer"], l.base) :=
        inj_on_of_nodup_map M.params_nodup hp (M.base_mem m hm l hl) heq
      rw [heq, (hserved m hm l hl).get_inside deltaWeight hm hl]
      rcases (hserved m hm l hl).merges with hdelta | ⟨-, hback⟩
      · unfold Lora.weight
        rw [hdelta, add_zero]
      · grind

theorem kept_context (backupAdapters : Bool) (body : State V → Except PyErr β) :
    Kept M s (mergedLoraContext deltaWeight M backupAdapters body s).2 := by
  cases backupAdapters with
  | true =>
    refine ⟨fun p hp => ?_, fun m hm hlora => ?_⟩
    · exact (get_cleanMergedLora _ p.2).trans (get_restored deltaWeight hserved hp)
    · obtain ⟨l, hl⟩ := Option.isSome_iff_exists.1 hlora
      exact (merged_cleanMergedLora hm hl _).trans (hserved m hm l hl).unmerged.symm
  | false =>
    refine ⟨fun p hp => ?_, fun m hm hlora => ?_⟩
    · by_cases hbase : ∀ m ∈ M.modules, ∀ l ∈ m.lora, p.2 ≠ l.base
      · exact (get_fsdpMergeUnmerge deltaWeight hbase false _).trans
          (get_fsdpMergeUnmerge deltaWeight hbase true s)
      · push Not at hbase
        obtain ⟨m, hm, l, hl, heq⟩ := hbase
        rw [heq]
        exact congrArg View.base (view_exit deltaWeight hm hl (hserved m hm l hl).unmerged)
    · obtain ⟨l, hl⟩ := Option.isSome_iff_exists.1 hlora
      exact congrArg View.merged (view_exit deltaWeight hm hl (hserved m hm l hl).unmerged)

theorem kept_collect : Kept M s (collectMergedLoraParams deltaWeight M s).2 := by
  unfold collectMergedLoraParams
  split
  · refine ⟨fun p hp => ?_, fun m hm hlora => ?_⟩
    · refine (get_cleanMergedLora _ p.2).trans ?_
      by_cases hbase : ∀ m ∈ M.modules, ∀ l ∈ m.lora, p.2 ≠ l.base
      · exact (get_foldl_restoreModule_of_ne hbase _ _).trans
          (get_mergeOrUnmergeLora deltaWeight hbase true s)
      · push Not at hbase
        obtain ⟨m, hm, l, hl, heq⟩ := hbase
        rw [heq]
        exact get_foldl_restoreModule hm hl s _
    · obtain ⟨l, hl⟩ := Option.isSome_iff_exists.1 hlora
      exact (merged_cleanMergedLora hm hl _).trans (hserved m hm l hl).unmerged.symm
  · exact kept_context deltaWeight hserved true fun _ => .ok ()

end

/-! ## Runs -/

section

variable (hserved : ∀ m ∈ M.modules, ∀ l ∈ m.lora, Served deltaWeight M s m l)
include hserved

theorem kept_run (use : Use V) : Kept M s (Use.run deltaWeight M s use) := by
  cases use with
  | context backupAdapters body => exact kept_context deltaWeight hserved backupAdapters body
  | collect => exact kept_collect deltaWeight hserved

theorem kept_runs (uses : List (Use V)) : Kept M s (uses.foldl (Use.run deltaWeight M) s) := by
  induction uses generalizing s with
  | nil => exact Kept.refl s
  | cons use uses ih =>
    have hstep := kept_run deltaWeight hserved use
    exact hstep.trans (ih fun m hm l hl => (hserved m hm l hl).of_kept deltaWeight hstep hm hl)

end

theorem get?_collect (hm : m ∈ M.modules) (hl : m.lora = some l) {v : V} :
    (collectMergedLoraParams deltaWeight M s).1.get? (layerKey M m.path) = some v ↔
      skips (layerName M m.path) = false ∧ v = (fsdpMergeUnmerge deltaWeight M true s).get l.base := by
  have hbase := M.base_mem m hm l hl
  rw [← Bool.not_eq_true']
  unfold collectMergedLoraParams layerKey layerName fsdpMergeUnmerge
  cases M.version with
  | fsdp1 =>
    have hinner : (String.ofList ((weightName m.path ["base_layer"]).toList.drop
        "base_model.model.".length), l.base) ∈ innerItems M.named :=
      mem_filterMap.2 ⟨_, hbase,
        if_pos (List.isPrefixOf_iff_prefix.2 (M.lora_inner m hm l hl))⟩
    exact get?_ofItems_map innerKey M.inner_nodup (fun name => !skips name) _ hinner
  | fsdp2 => exact get?_ofItems_map cleanKey M.clean_nodup (fun name => !skips name) _ hbase

/-- Each layer, and each only if it is merged and put back. -/
theorem mergesOnce_iff (M : Module R) (s : State V) : MergesOnce deltaWeight M s ↔
      ∀ m ∈ M.modules, ∀ l ∈ m.lora, Served deltaWeight M s m l := by
  constructor
  · intro h m hm l hl
    have hbaseMem := M.base_mem m hm l hl
    have hlora : m.lora.isSome = true := by
      rw [Option.mem_def.1 hl]
      rfl
    -- a context with a backup leaves the flags cleared
    have hexit := h.kept [.context true fun _ => .ok ()]
    have hunmerged : s.merged m.path = false :=
      (hexit.merged m hm hlora).symm.trans (merged_cleanMergedLora hm hl _)
    have hinside : (fsdpMergeUnmerge deltaWeight M true s).get l.base = l.weight deltaWeight s :=
      Except.ok.inj (h.context [] true m hm l hl)
    refine ⟨hunmerged, ?_, ((get?_collect deltaWeight hm hl).1 (h.collect [] m hm l hl)).1⟩
    rw [or_iff_not_imp_left]
    intro hdelta
    have hne : l.weight deltaWeight s ≠ s.get l.base := by
      intro heq
      exact hdelta (add_eq_left.1 heq)
    constructor
    · by_contra hcovered
      rw [get_inside deltaWeight hm hl hunmerged, if_neg hcovered] at hinside
      exact hne hinside.symm
    · by_contra hbacked
      have hput : (restoreBaseModelWeights M (backupBaseModelWeights M s)
          (fsdpMergeUnmerge deltaWeight M true s)).get l.base = s.get l.base :=
        (get_cleanMergedLora _ _).symm.trans (hexit.get _ hbaseMem)
      rw [get_restoreBaseModelWeights hbaseMem, if_neg hbacked, hinside] at hput
      exact hne hput
  · intro hserved
    have hruns := kept_runs deltaWeight hserved
    have hlayer : ∀ uses : List (Use V), ∀ m ∈ M.modules, ∀ l ∈ m.lora,
        (fsdpMergeUnmerge deltaWeight M true (uses.foldl (Use.run deltaWeight M) s)).get l.base =
          l.weight deltaWeight s := by
      intro uses m hm l hl
      have hlater := (hserved m hm l hl).of_kept deltaWeight (hruns uses) hm hl
      rw [hlater.get_inside deltaWeight hm hl, (hruns uses).weight_eq deltaWeight hm hl]
    refine ⟨hruns, fun uses _ m hm l hl => ?_, fun uses m hm l hl => ?_⟩
    · exact congrArg Except.ok (hlayer uses m hm l hl)
    · exact (get?_collect deltaWeight hm hl).2
        ⟨(hserved m hm l hl).collects, (hlayer uses m hm l hl).symm⟩

end Uses

/-- Two layers with adapters, `q_proj` and `lm_head`; only layer 0 is wrapped, and the root. -/
def lmHeadModule : Module Int where
  version := .fsdp2
  modules := [
    ⟨[], true, [], none⟩,
    ⟨["base_model", "model", "layers", "0"], true, [], none⟩,
    ⟨["base_model", "model", "layers", "0", "q_proj"], false, [("base_layer.weight", 0),
      ("lora_A.default.weight", 1), ("lora_B.default.weight", 2)], some ⟨0, 1, 2, 3⟩⟩,
    ⟨["base_model", "model", "lm_head"], false, [("base_layer.weight", 3),
      ("lora_A.default.weight", 4), ("lora_B.default.weight", 5)], some ⟨3, 4, 5, 3⟩⟩]
  paths_nodup := by decide
  names_nodup := by decide
  params_nodup := by decide
  lora_nodup := by decide
  base_mem := by decide
  loraA_mem := by decide
  loraB_mem := by decide
  lora_inner := by decide
  clean_nodup := by decide
  inner_nodup := by decide

/-- Six parameters, nothing merged. -/
def lmHeadState : State Int where
  generation _ := 0
  data p _ := [5, 1, 2, 7, 1, 2].getD p 0
  merged _ := false

/-- `lm_head` is `7` inside, and not `7 + 3 * 2 * 1`. -/
theorem lmHead_unmerged :
    ¬ ∀ (M : Module Int) (s : State Int), (∀ m ∈ M.modules, s.merged m.path = false) →
      MergesOnce (fun scaling b a => scaling * (b * a)) M s := by
  intro h
  have hcontext := (h lmHeadModule lmHeadState (fun _ _ => rfl)).context [] true
    ⟨["base_model", "model", "lm_head"], false, [("base_layer.weight", 3),
      ("lora_A.default.weight", 4), ("lora_B.default.weight", 5)], some ⟨3, 4, 5, 3⟩⟩
    (by simp [lmHeadModule]) ⟨3, 4, 5, 3⟩ rfl
  have hvalue : (fsdpMergeUnmerge (fun scaling b a : Int => scaling * (b * a)) lmHeadModule true
      lmHeadState).get 3 = 7 := by decide
  have hweight : Lora.weight (fun scaling b a : Int => scaling * (b * a))
      (⟨3, 4, 5, 3⟩ : Lora Int) lmHeadState = 13 := by decide
  have heq := Except.ok.inj hcontext
  rw [hweight] at heq
  exact absurd (hvalue.symm.trans heq) (by decide)

end Verl.FsdpLora
