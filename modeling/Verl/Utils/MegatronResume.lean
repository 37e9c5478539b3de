import Verl.Utils.MegatronCheckpoint

/-! # What a Megatron checkpoint resumes

The keys that are read are among those that were saved, and under each of them is what was saved:

    template of the fresh engine    model ... optimizer  lr_scheduler  rng_state
    saved                           model ... optimizer  lr_scheduler  rng_state -/

namespace Verl.MegatronCheckpoint

open List Dict Option

/-! ## Lemmas: saving and loading -/

section Resume

variable {W O R D H L : Type} {lib : Libraries W O R D H} {cfg : ManagerConfig}
  {optim : OptimConfig} {e fresh : Engine W O R}

/-- What is saved of an entry. -/
def storedEntry (lib : Libraries W O R D H) (cfg : ManagerConfig) (key : String)
    (entry : Entry W O R) : Entry W O R :=
  if cfg.peft then entry.filterAdapters lib.adapterKeyFilter key else entry

/-- What is saved of a model chunk. -/
def storedChunk (lib : Libraries W O R D H) (cfg : ManagerConfig) (chunk : Dict W) : Dict W :=
  if cfg.peft then chunk.filterKeys lib.adapterKeyFilter else chunk

variable {key : String} {stateDict : StateDict W O R}

theorem storedEntry_model (lib : Libraries W O R D H) (cfg : ManagerConfig) (n i : Nat)
    (chunk : Dict W) : storedEntry lib cfg (modelKey n i) (.model chunk : Entry W O R) =
      .model (storedChunk lib cfg chunk) := by
  unfold storedEntry storedChunk
  split
  · show (if isModelStateKey (modelKey n i) = true then _ else _) = _
    rw [if_pos (isModelStateKey_modelKey n i)]
  · rfl

theorem get?_maybeFilter (hlib : lib.Lawful) (stateDict : StateDict W O R) (key : String) :
    (maybeFilterPeftStateDict lib cfg stateDict).get? key =
      (stateDict.get? key).map (storedEntry lib cfg key) := by
  unfold maybeFilterPeftStateDict storedEntry
  cases cfg.peft with
  | true =>
    rw [if_pos rfl, hlib.peft_filter]
    rfl
  | false => exact Option.map_id'.symm

theorem get?_stored (hlib : lib.Lawful) {m o x : Bool} {entry : Entry W O R}
    (h : HasEntry e m o x key entry) :
    (maybeFilterPeftStateDict lib cfg (generateStateDict e m o x)).get? key =
      some (storedEntry lib cfg key entry) := by
  rw [get?_maybeFilter hlib, (get?_generateStateDict e m o x key entry).2 h]
  rfl

theorem exists_of_mem_keys_stored (hlib : lib.Lawful) {m o x : Bool}
    (h : key ∈ (maybeFilterPeftStateDict lib cfg (generateStateDict e m o x)).keys) :
    ∃ entry, HasEntry e m o x key entry := by
  obtain ⟨entry, hentry⟩ := mem_keys_iff.1 h
  rw [get?_maybeFilter hlib] at hentry
  obtain ⟨entry', hentry', -⟩ := map_eq_some_iff.1 hentry
  exact ⟨entry', (get?_generateStateDict e m o x key entry').1 hentry'⟩

/-- The model sections that `save_checkpoint` generates. -/
def savesModel (cfg : ManagerConfig) : Bool :=
  if cfg.useDistCheckpointing then cfg.shouldSave .model else cfg.shouldSave .model && cfg.peft

def storedStateDict (lib : Libraries W O R D H) (cfg : ManagerConfig) (e : Engine W O R) :
    StateDict W O R :=
  maybeFilterPeftStateDict lib cfg
    (generateStateDict e (savesModel cfg) (cfg.shouldSave .optimizer) (cfg.shouldSave .extra))

/-- The checkpoint of an engine. -/
def storedCheckpoint (lib : Libraries W O R D H) (cfg : ManagerConfig) (e : Engine W O R) :
    Checkpoint D H where
  dist := lib.saveDistCheckpointing (storedStateDict lib cfg e)
  huggingface :=
    if cfg.shouldSave .model && cfg.useHfCheckpoint && (cfg.vanillaBridge || !cfg.peft) then
      some (lib.saveWeights e.model)
    else none

theorem saveCheckpoint_eq (lib : Libraries W O R D H) (cfg : ManagerConfig) (e : Engine W O R) :
    saveCheckpoint lib cfg e = (if cfg.useDistCheckpointing then
      (range e.model.length).forM fun vppRank =>
        (getModelSection (storedStateDict lib cfg e) (modelKey e.model.length vppRank)).map
          fun _ => ()
      else pure ()) >>= fun _ => .ok (storedCheckpoint lib cfg e) := by
  unfold saveCheckpoint storedCheckpoint storedStateDict savesModel
  cases cfg.useDistCheckpointing with
  | true => rfl
  | false => rfl

/-- Saving returns iff the model is among the contents, with dist checkpointing. -/
theorem saveCheckpoint_eq_ok_iff (hlib : lib.Lawful) (hchunks : e.model ≠ [])
    {ckpt : Checkpoint D H} : saveCheckpoint lib cfg e = .ok ckpt ↔
      (cfg.useDistCheckpointing = true → cfg.shouldSave .model = true) ∧
        ckpt = storedCheckpoint lib cfg e := by
  rw [saveCheckpoint_eq]
  cases hdist : cfg.useDistCheckpointing with
  | false =>
    rw [if_neg (by decide)]
    constructor
    · grind
    · grind
  | true =>
    have hsaves : savesModel cfg = cfg.shouldSave .model := by
      unfold savesModel
      rw [hdist]
      rfl
    have hlog : (range e.model.length).forM (fun vppRank => (getModelSection
        (storedStateDict lib cfg e) (modelKey e.model.length vppRank)).map fun _ => ()) = .ok () ↔
          cfg.shouldSave .model = true := by
      rw [forM_eq_ok_iff]
      constructor
      · intro h
        obtain ⟨chunk, hsection, -⟩ := except_map_eq_ok.1
          (h 0 (mem_range.2 (length_pos_iff.2 hchunks)))
        unfold getModelSection at hsection
        split at hsection
        · next hentry =>
          obtain ⟨entry, hentry⟩ := exists_of_mem_keys_stored hlib (mem_keys_iff.2 ⟨_, hentry⟩)
          generalize hkey : modelKey e.model.length 0 = key at hentry
          have hmodel := isModelStateKey_modelKey e.model.length 0
          rw [hkey] at hmodel
          cases hentry with
          | model _ _ hgenerate => exact hsaves.symm.trans hgenerate
          | optimizer | lrScheduler | rngState => exact absurd hmodel (by decide)
        · cases hsection
        · cases hsection
      · intro hmodel i hi
        obtain ⟨chunk, hchunk⟩ : ∃ chunk, e.model[i]? = some chunk :=
          ⟨_, getElem?_eq_getElem (mem_range.1 hi)⟩
        have hentry : (storedStateDict lib cfg e).get? (modelKey e.model.length i) =
            some (storedEntry lib cfg (modelKey e.model.length i) (.model chunk)) :=
          get?_stored hlib (.model i chunk (hsaves.trans hmodel) hchunk)
        rw [storedEntry_model] at hentry
        unfold getModelSection
        rw [hentry]
        rfl
    rw [if_pos rfl]
    constructor
    · intro h
      obtain ⟨⟨⟩, hforM, heq⟩ := bind_eq_ok.1 h
      cases heq
      exact ⟨fun _ => hlog.1 hforM, rfl⟩
    · rintro ⟨hmodel, rfl⟩
      rw [hlog.2 (hmodel rfl), ok_bind]

theorem shouldSave_of_shouldLoad {content : Content} (h : cfg.shouldLoad content = true) :
    cfg.shouldSave content = true :=
  decide_eq_true (cfg.load_saved content (of_decide_eq_true h))

/-- What is loaded as model sections has been saved as such. -/
theorem savesModel_of_shouldLoadDistModel (h : cfg.shouldLoadDistModel = true) :
    savesModel cfg = true := by
  unfold ManagerConfig.shouldLoadDistModel at h
  rw [Bool.and_eq_true, Bool.or_eq_true] at h
  unfold savesModel
  rw [shouldSave_of_shouldLoad h.1]
  cases hdist : cfg.useDistCheckpointing with
  | true => rfl
  | false =>
    rw [hdist] at h
    rw [h.2.resolve_left (by decide)]
    rfl

/-- All that loading reads has been saved. -/
theorem keys_template (hsame : SameConfig cfg optim e fresh) (hlib : lib.Lawful) :
    ∀ key ∈ (maybeFilterPeftStateDict lib cfg (generateStateDict fresh cfg.shouldLoadDistModel
      (cfg.shouldLoad .optimizer) (cfg.shouldLoad .extra))).keys,
      key ∈ (storedStateDict lib cfg e).keys := by
  intro key hkey
  have hlen := hsame.names.length_eq
  obtain ⟨entry, hentry⟩ := exists_of_mem_keys_stored hlib hkey
  rw [mem_keys_iff]
  cases hentry with
  | model i chunk hload hchunk =>
    have hlt := (List.getElem?_eq_some_iff.1 hchunk).1
    rw [hlen]
    exact ⟨_, get?_stored hlib (.model i _ (savesModel_of_shouldLoadDistModel hload)
      (getElem?_eq_getElem (hlen ▸ hlt)))⟩
  | optimizer hload => exact ⟨_, get?_stored hlib (.optimizer (shouldSave_of_shouldLoad hload))⟩
  | lrScheduler s hload hs =>
    obtain ⟨numSteps, hsched⟩ := hsame.scheduler
    exact ⟨_, get?_stored hlib (.lrScheduler _ (shouldSave_of_shouldLoad hload) hsched)⟩
  | rngState hload => exact ⟨_, get?_stored hlib (.rngState (shouldSave_of_shouldLoad hload))⟩

theorem mapVals_get? {chunk chunk' : Dict W} (h : chunk'.keys = chunk.keys) :
    (chunk'.mapVals fun name w => (chunk.get? name).getD w) = chunk := by
  have hitems : ∀ items items' : List (String × W), items'.map Prod.fst = items.map Prod.fst →
      (∀ p ∈ items, chunk.get? p.1 = some p.2) →
        items'.map (fun p => (p.1, (chunk.get? p.1).getD p.2)) = items := by
    intro items
    induction items with
    | nil =>
      intro items' hkeys _
      rw [map_eq_nil_iff.1 hkeys, map_nil]
    | cons p items ih =>
      intro items' hkeys hget
      cases items' with
      | nil => cases hkeys
      | cons p' items' =>
        rw [map_cons, map_cons, List.cons.injEq] at hkeys
        rw [forall_mem_cons] at hget
        rw [map_cons, ih items' hkeys.2 hget.2, hkeys.1, hget.1]
        rfl
  apply Dict.ext
  rw [items_mapVals]
  exact hitems _ _ h fun p hp => get?_eq_some hp

/-- Loading what was saved of a chunk. -/
theorem loadStateDict_stored (lib : Libraries W O R D H) (cfg : ManagerConfig)
    {chunk chunk' : Dict W} (h : chunk'.keys = chunk.keys) :
    loadStateDict (!cfg.peft) chunk' (storedChunk lib cfg chunk) =
      .ok (loadedChunk lib cfg chunk chunk') := by
  unfold loadStateDict storedChunk loadedChunk
  cases cfg.peft with
  | true =>
    rw [if_neg (by simp), if_pos rfl, if_pos rfl]
    refine congrArg Except.ok (mapVals_congr fun p _ => ?_)
    rw [get?_filterKeys]
    split
    · rfl
    · rfl
  | false =>
    have hall : (chunk'.keys.all (· ∈ chunk.keys) && chunk.keys.all (· ∈ chunk'.keys)) = true := by
      grind
    simp only [Bool.false_eq_true, if_false, hall, Bool.not_true, Bool.and_false, mapVals_get? h]

theorem loadDistModel_eq (hchunks : e.model ≠ [])
    (hnames : Forall₂ (fun chunk chunk' => chunk.keys = chunk'.keys) fresh.model e.model)
   
    (hdict : ∀ i chunk, e.model[i]? = some chunk → stateDict.get? (modelKey e.model.length i) =
      some (.model (storedChunk lib cfg chunk))) :
    loadDistModel cfg stateDict fresh.model =
      .ok (zipWith (loadedChunk lib cfg) e.model fresh.model) := by
  have hlen := hnames.length_eq
  have hpos := length_pos_iff.2 hchunks
  have hsection : ∀ i chunk, e.model[i]? = some chunk →
      (stateDict.keys.contains (modelKey e.model.length i) = true ∧
        getModelSection stateDict (modelKey e.model.length i) =
          .ok (storedChunk lib cfg chunk)) := by
    intro i chunk hchunk
    have hget := hdict i chunk hchunk
    refine ⟨contains_iff_mem.2 (mem_keys_iff.2 ⟨_, hget⟩), ?_⟩
    unfold getModelSection
    rw [hget]
  have hkey : ∀ i, e.model.length ≠ 1 → modelKey 2 i = modelKey e.model.length i := by
    intro i hne
    unfold modelKey
    rw [if_pos (by decide), if_pos (by omega)]
  have hone : e.model.length = 1 → ∀ i, "model" = modelKey e.model.length i := by
    intro heq i
    unfold modelKey
    rw [heq]
    rfl
  have hfound : (stateDict.keys.contains "model" || (range fresh.model.length).any fun i =>
      stateDict.keys.contains (modelKey 2 i)) = true := by
    have hfirst := (hsection 0 _ (getElem?_eq_getElem hpos)).1
    rw [Bool.or_eq_true]
    by_cases heq : e.model.length = 1
    · grind
    · grind
  unfold loadDistModel
  rw [hfound]
  show (fresh.model.zipIdx.mapM _) = _
  apply mapM_eq_ok_of_forall₂
  rw [forall₂_iff_get]
  refine ⟨by rw [length_zipIdx, length_zipWith, hlen, Nat.min_self], fun i hi hi' => ?_⟩
  rw [length_zipIdx] at hi
  have hie : i < e.model.length := hlen ▸ hi
  have hnames' := (forall₂_iff_get.1 hnames).2 i hi hie
  obtain ⟨hcontains, hget⟩ := hsection i _ (getElem?_eq_getElem hie)
  rw [get_eq_getElem, get_eq_getElem, getElem_zipIdx, getElem_zipWith,
    Nat.zero_add]
  dsimp only
  by_cases heq : e.model.length = 1
  · rw [if_pos (hlen.trans heq), hone heq i, hget, ok_bind]
    exact loadStateDict_stored lib cfg hnames'
  · rw [if_neg (fun h => heq (hlen.symm.trans h)), hkey i heq, hcontains, hget]
    exact loadStateDict_stored lib cfg hnames'

/-- What a fresh engine becomes. -/
def resumed (lib : Libraries W O R D H) (cfg : ManagerConfig) (e fresh : Engine W O R) :
    Engine W O R where
  model := if cfg.shouldLoad .model then
    List.zipWith (loadedChunk lib cfg) e.model fresh.model else fresh.model
  optimizer := if cfg.shouldLoad .optimizer then e.optimizer else fresh.optimizer
  lrScheduler := if cfg.shouldLoad .optimizer && cfg.useCheckpointOptParamScheduler then
    e.lrScheduler else fresh.lrScheduler
  rng := if cfg.shouldLoad .extra then e.rng else fresh.rng

/-- The model comes from the state dict, or from the HF weights. -/
theorem loadModel_eq (hlib : lib.Lawful) (hsame : SameConfig cfg optim e fresh)
   
    (hdict : cfg.shouldLoadDistModel = true → ∀ i chunk, e.model[i]? = some chunk →
      stateDict.get? (modelKey e.model.length i) = some (.model (storedChunk lib cfg chunk))) :
    loadModel lib cfg stateDict (storedCheckpoint lib cfg e) fresh =
      .ok { fresh with model := (resumed lib cfg e fresh).model } := by
  unfold loadModel resumed
  dsimp only
  by_cases hload : cfg.shouldLoad .model = true
  · rw [if_pos hload]
    by_cases hdist : cfg.shouldLoadDistModel = true
    · rw [if_pos hdist, loadDistModel_eq hsame.chunks hsame.names (hdict hdist)]
      rfl
    · rw [if_neg hdist]
      have hboth : cfg.useDistCheckpointing = false ∧ cfg.peft = false := by
        unfold ManagerConfig.shouldLoadDistModel at hdist
        rwa [hload, Bool.true_and, Bool.not_eq_true, Bool.or_eq_false_iff] at hdist
      have hhf : cfg.useHfCheckpoint = true := by simp [ManagerConfig.useHfCheckpoint, hboth.1]
      have hfiles : (storedCheckpoint lib cfg e).huggingface = some (lib.saveWeights e.model) := by
        simp [storedCheckpoint, shouldSave_of_shouldLoad hload, hhf, hboth.2, Bool.not_false, Bool.or_true]
      have hzip : zipWith (loadedChunk lib cfg) e.model fresh.model = e.model := by
        have hloaded : loadedChunk lib cfg = fun chunk (_ : Dict W) => chunk := by
          funext chunk chunk'
          unfold loadedChunk
          rw [hboth.2]
          rfl
        rw [hloaded, ← map_uncurry_zip_eq_zipWith]
        exact map_fst_zip hsame.names.length_eq.ge
      rw [hload, hhf, hboth.2, hfiles, hzip]
      dsimp only
      rw [hlib.load_weights _ _ hsame.names]
      rfl
  · have hdist : ¬cfg.shouldLoadDistModel = true := by
      simp [ManagerConfig.shouldLoadDistModel, Bool.eq_false_iff.2 hload]
    rw [if_neg hdist, if_neg hload, Bool.eq_false_iff.2 hload]
    rfl

/-- The filter is for the model sections only. -/
theorem storedEntry_of_not_isModelStateKey (lib : Libraries W O R D H) (cfg : ManagerConfig)
    (hkey : isModelStateKey key = false) (entry : Entry W O R) :
    storedEntry lib cfg key entry = entry := by
  unfold storedEntry
  split
  · cases entry with
    | model chunk =>
      show (if isModelStateKey key = true then _ else _) = _
      rw [hkey, if_neg (by decide)]
    | optimizer | lrScheduler | rngState => rfl
  · rfl

/-- The optimizer, and with `use_checkpoint_opt_param_scheduler` the schedule. -/
theorem loadOptimizer_eq (hsame : SameConfig cfg optim e fresh)
    {model : List (Dict W)}
    (hoptimizer : stateDict.get? "optimizer" = some (.optimizer e.optimizer))
    (hscheduler : ∀ s, e.lrScheduler = some s →
      stateDict.get? "lr_scheduler" = some (.lrScheduler s)) :
    loadOptimizer cfg stateDict { fresh with model := model } = .ok { fresh with
      model := model
      optimizer := e.optimizer
      lrScheduler := if cfg.useCheckpointOptParamScheduler then e.lrScheduler
        else fresh.lrScheduler } := by
  obtain ⟨numSteps, hsched⟩ := hsame.scheduler
  unfold loadOptimizer
  rw [hoptimizer, hscheduler _ hsched]
  dsimp only
  cases cfg.useCheckpointOptParamScheduler with
  | false => rfl
  | true =>
    rw [if_pos rfl, if_pos rfl, hsched, hsame.fresh]
    show Except.ok _ = Except.ok _
    unfold OptimizerParamScheduler.loadStateDict
    rw [map_some, ite_self]

theorem loadExtra_eq (e' : Engine W O R) {rng : RngState R}
    (hrng : stateDict.get? "rng_state" = some (.rngState rng)) :
    loadExtra stateDict e' = .ok { e' with rng := rng } := by
  unfold loadExtra
  rw [hrng]
  dsimp only
  rw [if_neg]
  rw [List.isEmpty_iff]
  exact rng.seeded

/-- A checkpoint is loaded into a fresh engine. -/
theorem loadCheckpoint_eq (hlib : lib.Lawful) (hsame : SameConfig cfg optim e fresh) :
    loadCheckpoint lib cfg fresh (storedCheckpoint lib cfg e) = .ok (resumed lib cfg e fresh) := by
  obtain ⟨numSteps, hsched⟩ := hsame.scheduler
  have hlen := hsame.names.length_eq
  obtain ⟨stateDict, hload, hget⟩ := hlib.load_dist (storedStateDict lib cfg e) _
    (keys_template hsame hlib)
  -- what is read under a key of the fresh engine is what was saved under it
  have hentry : ∀ key entry entry',
      HasEntry fresh cfg.shouldLoadDistModel (cfg.shouldLoad .optimizer) (cfg.shouldLoad .extra)
        key entry' →
      HasEntry e (savesModel cfg) (cfg.shouldSave .optimizer) (cfg.shouldSave .extra) key entry →
        stateDict.get? key = some (storedEntry lib cfg key entry) := by
    intro key entry entry' hfresh he
    rw [hget key (mem_keys_iff.2 ⟨_, get?_stored hlib hfresh⟩)]
    exact get?_stored hlib he
  have hsections : cfg.shouldLoadDistModel = true → ∀ i chunk, e.model[i]? = some chunk →
      stateDict.get? (modelKey e.model.length i) = some (.model (storedChunk lib cfg chunk)) := by
    intro hdist i chunk hchunk
    have hlt : i < fresh.model.length := hlen ▸ (List.getElem?_eq_some_iff.1 hchunk).1
    have hfresh : HasEntry fresh cfg.shouldLoadDistModel (cfg.shouldLoad .optimizer)
        (cfg.shouldLoad .extra) (modelKey fresh.model.length i) (.model fresh.model[i]) :=
      .model i _ hdist (getElem?_eq_getElem hlt)
    rw [hlen] at hfresh
    rw [hentry _ _ _ hfresh (.model i chunk (savesModel_of_shouldLoadDistModel hdist) hchunk),
      storedEntry_model]
  have hoptimizer : ∀ k : Engine W O R → Except PyErr (Engine W O R),
      (if cfg.shouldLoad .optimizer then
        loadOptimizer cfg stateDict { fresh with model := (resumed lib cfg e fresh).model } >>= k
      else pure { fresh with model := (resumed lib cfg e fresh).model } >>= k) =
        k { resumed lib cfg e fresh with rng := fresh.rng } := by
    intro k
    by_cases hload : cfg.shouldLoad .optimizer = true
    · have hsave := shouldSave_of_shouldLoad hload
      have hstate := hentry _ _ _ (.optimizer hload) (.optimizer hsave)
      have hlr : ∀ s, e.lrScheduler = some s →
          stateDict.get? "lr_scheduler" = some (.lrScheduler s) := by
        intro s hs
        rw [hentry _ _ _ (.lrScheduler _ hload hsame.fresh) (.lrScheduler _ hsave hs),
          storedEntry_of_not_isModelStateKey lib cfg (by decide)]
      rw [storedEntry_of_not_isModelStateKey lib cfg (by decide)] at hstate
      rw [if_pos hload, loadOptimizer_eq hsame hstate hlr, ok_bind]
      unfold resumed
      rw [hload]
      rfl
    · unfold resumed
      rw [if_neg hload, Bool.eq_false_iff.2 hload]
      rfl
  have hextra : (if cfg.shouldLoad .extra then
      loadExtra stateDict { resumed lib cfg e fresh with rng := fresh.rng }
      else pure { resumed lib cfg e fresh with rng := fresh.rng }) =
        .ok (resumed lib cfg e fresh) := by
    by_cases hload : cfg.shouldLoad .extra = true
    · have hstate := hentry _ _ _ (.rngState hload) (.rngState (shouldSave_of_shouldLoad hload))
      rw [storedEntry_of_not_isModelStateKey lib cfg (by decide)] at hstate
      rw [if_pos hload, loadExtra_eq _ hstate]
      unfold resumed
      rw [hload]
      rfl
    · unfold resumed
      rw [if_neg hload, Bool.eq_false_iff.2 hload]
      rfl
  unfold loadCheckpoint
  show lib.loadDistCheckpointing _ (lib.saveDistCheckpointing (storedStateDict lib cfg e)) >>= _ = _
  rw [hload, ok_bind, loadModel_eq hlib hsame hsections, ok_bind]
  exact (hoptimizer _).trans hextra

/-- With the optimizer loaded, the schedule goes on where it was saved, or starts again. -/
theorem resumed_iff (lib : Libraries W O R D H) (getLr : SchedulerArgs → Nat → L)
    (hsame : SameConfig cfg optim e fresh) :
    Resumed lib getLr cfg e fresh (resumed lib cfg e fresh) ↔
      (cfg.shouldLoad .optimizer = true → cfg.useCheckpointOptParamScheduler = false →
        ∀ s ∈ e.lrScheduler, ∀ k, getLr s.args (k + 1) = getLr s.args (s.numSteps + (k + 1))) := by
  obtain ⟨numSteps, hsched⟩ := hsame.scheduler
  have hlr : ∀ k, (resumed lib cfg e fresh).lrAfter getLr (k + 1) = e.lrAfter getLr (k + 1) ↔
      (cfg.shouldLoad .optimizer && cfg.useCheckpointOptParamScheduler) = true ∨
        ∀ s ∈ e.lrScheduler, getLr s.args (k + 1) = getLr s.args (s.numSteps + (k + 1)) := by
    intro k
    unfold resumed Engine.lrAfter
    dsimp only
    cases cfg.shouldLoad .optimizer && cfg.useCheckpointOptParamScheduler with
    | true => exact iff_of_true rfl (.inl rfl)
    | false =>
      rw [if_neg (by decide), hsched, hsame.fresh, map_some, map_some,
        some.injEq, or_iff_right (by decide)]
      constructor
      · rintro h s hs
        obtain rfl := some.inj hs
        exact (congrArg (getLr _) (Nat.zero_add _)).symm.trans h
      · intro h
        exact (congrArg (getLr _) (Nat.zero_add _)).trans (h _ rfl)
  constructor
  · intro h hload hflag s hs k
    refine ((hlr k).1 (h.lr hload k)).resolve_left ?_ s hs
    rw [hflag, Bool.and_false]
    exact Bool.false_ne_true
  · intro h
    refine ⟨rfl, rfl, fun hload => ?_, rfl, fun hload k => (hlr k).2 ?_⟩
    · unfold resumed
      rw [hload]
      rfl
    · grind

/-- What an engine that was resumed had to be. -/
theorem ready_of_resumes (hlib : lib.Lawful) {getLr : SchedulerArgs → Nat → L}
    (hsame : SameConfig cfg optim e fresh) (h : Resumes lib getLr cfg e fresh) :
    Ready getLr cfg e := by
  obtain ⟨ckpt, loaded, hsave, hload, hresumed⟩ := h
  obtain ⟨hmodel, rfl⟩ := (saveCheckpoint_eq_ok_iff hlib hsame.chunks).1 hsave
  rw [loadCheckpoint_eq hlib hsame] at hload
  cases hload
  exact ⟨hmodel, (resumed_iff lib getLr hsame).1 hresumed⟩

/-- A checkpoint resumes a run iff the model is saved whenever its keys are logged, and the
schedule, if it is not restored, has the rates it began with. -/
theorem resumes_iff_ready (lib : Libraries W O R D H) (hlib : lib.Lawful)
    (getLr : SchedulerArgs → Nat → L) (cfg : ManagerConfig) (optim : OptimConfig)
    (e fresh : Engine W O R) (hsame : SameConfig cfg optim e fresh) :
    Resumes lib getLr cfg e fresh ↔ Ready getLr cfg e := by
  constructor
  · exact ready_of_resumes hlib hsame
  · intro h
    exact ⟨_, _, (saveCheckpoint_eq_ok_iff hlib hsame.chunks).2 ⟨h.model, rfl⟩,
      loadCheckpoint_eq hlib hsame, (resumed_iff lib getLr hsame).2 h.lr⟩

end Resume

/-! ## A rank with two chunks -/

/-- Files that keep what they are given. -/
def files : Libraries Nat Nat Nat (StateDict Nat Nat Nat) (List (Dict Nat)) where
  saveDistCheckpointing stateDict := stateDict
  loadDistCheckpointing template saved :=
    if template.keys.all (· ∈ saved.keys) then .ok (saved.filterKeys (· ∈ template.keys))
    else .error (.runtimeError "unexpected keys")
  saveWeights model := model
  loadWeights _ weights := weights
  adapterKeyFilter key := key == "lora_A" || key == "lora_B"
  applyPeftAdapterFilter stateDict := stateDict.mapVals
    (Entry.filterAdapters fun key => key == "lora_A" || key == "lora_B")

theorem files_lawful : files.Lawful where
  load_dist saved template h := by
    have hall : template.keys.all (· ∈ saved.keys) = true :=
      all_eq_true.2 fun key hkey => decide_eq_true (h key hkey)
    refine ⟨_, if_pos hall, fun key hkey => ?_⟩
    rw [get?_filterKeys, if_pos (decide_eq_true hkey)]
    rfl
  load_weights _ _ _ := rfl
  peft_filter stateDict key := get?_mapVals _ stateDict key

def optimConfig (flag : Bool) : OptimConfig where
  lr := 1
  minLr := 0
  lrWarmupInit := 0
  lrWarmupSteps := none
  lrWarmupStepsRatio := none
  lrDecaySteps := none
  totalTrainingSteps := 10
  lrDecayStyle := "linear"
  weightDecay := 0
  weightDecayIncrStyle := "constant"
  lrWsdDecaySteps := none
  lrWsdDecayStyle := "exponential"
  useCheckpointOptParamScheduler := flag

/-- The rate of a linear schedule without warmup. -/
def linearLr (args : SchedulerArgs) (numSteps : Nat) : ℚ :=
  if args.lrDecaySteps < numSteps then args.minLr
  else args.minLr + (1 - numSteps / args.lrDecaySteps) * (args.maxLr - args.minLr)

def managerConfig (contents : List Content) (flag : Bool) : ManagerConfig where
  saveContents := contents
  loadContents := contents
  load_saved _ h := h
  useDistCheckpointingArg := true
  bridge := true
  provider := true
  isValueModel := false
  peft := false
  useCheckpointOptParamScheduler := flag

def trained (flag : Bool) : Engine Nat Nat Nat where
  model := [Dict.ofItems [("w", 3)], Dict.ofItems [("w", 4)]]
  optimizer := 5
  lrScheduler := some { getMegatronOptimizerParamScheduler (optimConfig flag) with numSteps := 4 }
  rng := ⟨6, [("model-parallel-rng", 7)], cons_ne_nil _ _⟩

def initialised (flag : Bool) : Engine Nat Nat Nat where
  model := [Dict.ofItems [("w", 0)], Dict.ofItems [("w", 0)]]
  optimizer := 0
  lrScheduler := some (getMegatronOptimizerParamScheduler (optimConfig flag))
  rng := ⟨0, [("model-parallel-rng", 0)], cons_ne_nil _ _⟩

theorem sameConfig_initialised (contents : List Content) (flag : Bool) :
    SameConfig (managerConfig contents flag) (optimConfig flag) (trained flag)
      (initialised flag) where
  flag := rfl
  chunks := cons_ne_nil _ _
  names := .cons rfl (.cons rfl .nil)
  scheduler := ⟨4, rfl⟩
  fresh := rfl

theorem resumes_trained : Resumes files linearLr
    (managerConfig [.model, .optimizer, .extra] true) (trained true) (initialised true) :=
  (resumes_iff_ready files files_lawful linearLr _ (optimConfig true) _ _
    (sameConfig_initialised _ true)).2 ⟨fun _ => rfl, fun _ h => nomatch h⟩

/-- Without the model the keys of its sections are logged all the same, and by default the schedule
starts again. -/
theorem not_resumes :
    (SameConfig (managerConfig [.optimizer, .extra] true) (optimConfig true) (trained true)
        (initialised true) ∧
      ¬Resumes files linearLr (managerConfig [.optimizer, .extra] true) (trained true)
        (initialised true)) ∧
    SameConfig (managerConfig [.model, .optimizer, .extra] false) (optimConfig false)
        (trained false) (initialised false) ∧
      ¬Resumes files linearLr (managerConfig [.model, .optimizer, .extra] false) (trained false)
        (initialised false) := by
  refine ⟨⟨sameConfig_initialised _ true, fun h => ?_⟩, sameConfig_initialised _ false, fun h => ?_⟩
  · have hmodel := (ready_of_resumes files_lawful (sameConfig_initialised _ true) h).model rfl
    exact absurd hmodel (by decide)
  · have hready := ready_of_resumes files_lawful (sameConfig_initialised _ false) h
    have hlr := hready.lr rfl rfl _ rfl 0
    revert hlr
    decide +kernel

end Verl.MegatronCheckpoint
