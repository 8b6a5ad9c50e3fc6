import StoaCore.Client.BuilderRuns

/-!
# InitialSigners — builders that start with signers

The signer objects of an initial command are not copied.  Every `getCommand` merges the calls so far
into them once more, so their capabilities grow with every `getCommand`.
-/

namespace StoaCore
namespace Client

open Library Library.Js Signing

/-- The initial signers have distinct keys. -/
def DistinctSigners (v : PactCommand Signer) : Prop :=
  ((v.signers.getD []).map Signer.pubKey).Nodup

/-! ## The first composition -/

section Start

variable {w : World} {cmd patch : Draft} {v : PactCommand Signer} {table : List Signer}

/-- Signers with new keys are listed, and no object is written to. -/
theorem patchSigners_distinct {ps : List Nat} {rows : List Signer}
    (htable : KeyedTable.Reads w.heap (places cmd) table)
    (hrows : KeyedTable.Reads w.heap ps rows)
    (hkeys : ((table ++ rows).map Signer.pubKey).Nodup) :
    ∃ cmd', Async.runIn (ps.foldlM patchSigner cmd) w = (.ok cmd', w) ∧
      places cmd' = places cmd ++ ps := by
  induction ps generalizing cmd table rows with
  | nil => exact ⟨cmd, rfl, (List.append_nil _).symm⟩
  | cons p ps ih =>
      cases hrows with
      | @cons _ row _ rows hp hrows =>
          have hnew : row.pubKey ∉ table.map Signer.pubKey := by
            intro hmem
            rw [List.map_append, List.nodup_append] at hkeys
            exact hkeys.2.2 _ hmem _ (by simp) rfl
          have hmerge : mergeSigner p row w.heap (places cmd) = (w.heap, places cmd ++ [p]) :=
            KeyedTable.mergePlace_of_new htable hnew p
          have hrun : Async.runIn (patchSigner cmd p) w =
              (.ok (cmd.setSigners (places cmd ++ [p])), w) := by
            rw [patchSigner, Build.runIn_act]
            simp only [hp]
            change (Except.ok (cmd.setSigners (mergeSigner p row w.heap (places cmd)).2),
              ({ w with heap := (mergeSigner p row w.heap (places cmd)).1 } : World)) = _
            rw [hmerge]
          have hnext : KeyedTable.Reads w.heap (places (cmd.setSigners (places cmd ++ [p])))
              (table ++ [row]) := List.rel_append htable (.cons hp .nil)
          rcases ih hnext hrows (by simpa using hkeys) with ⟨cmd', hrest, hplaces⟩
          refine ⟨cmd', ?_, ?_⟩
          · rw [List.foldlM_cons, Async.runIn_bind_of_ok hrun]
            exact hrest
          · rw [hplaces]
            change (places cmd ++ [p]) ++ ps = _
            rw [List.append_assoc, List.singleton_append]

/-- A first patch with distinct signers lists these signers. -/
theorem places_patchCommand (hpatch : ReadsAs w.heap patch v) (hkeys : DistinctSigners v)
    (hrun : (Async.runIn (patchCommand {} patch) w).1 = .ok cmd) : places cmd = places patch := by
  rcases Async.bind_ok hrun with ⟨state, w₁, hfields, hrest⟩
  rw [Async.runIn_lift, Prod.mk.injEq] at hfields
  rcases hfields with ⟨hstate, rfl⟩
  have hempty : places state = [] := by
    rw [places, signers_patchFields hstate]
    rfl
  have htable : KeyedTable.Reads w.heap (places state) [] := hempty ▸ .nil
  rcases patchSigners_distinct htable hpatch.reads hkeys with ⟨cmd', hsigners, hplaces⟩
  have hsigners' : Async.runIn ((patch.signers.getD []).foldlM patchSigner state) w =
      (.ok cmd', w) := hsigners
  rw [Async.runIn_bind_of_ok hsigners'] at hrest
  cases hrest
  rw [places, signers_patchVerifiers, ← places, hplaces, hempty, List.nil_append]

end Start

/-- A builder whose initial signers have distinct keys lists them first. -/
theorem builds_distinct {clock : Nat → Nat} {init : Draft} (hnodup : (places init).Nodup) :
    Builds clock init DistinctSigners (places init) (statefulCompose clock init) [] := by
  refine builds_of_start fun w v hv hkeys => ?_
  have hyields := yields_patchCommand (readsAs_empty w.heap) hv hnodup
  refine ⟨hyields.frame, hyields.error, fun v' reads hv' => ?_⟩
  rcases hyields.ok v' reads hv' with ⟨cmd, hr, hreads, hstands, hnodup', -, hplaces⟩
  exact ⟨cmd, hr, hreads, hstands, hnodup', (places_patchCommand hv hkeys hr).symm ▸
    List.prefix_refl _, hplaces⟩

/-- `createTransactionBuilder(initial)` copies no signer: the builder starts from the objects of the
initial command. -/
theorem places_createTransactionBuilder {initial init : Draft} {start : Start} {w w' : World}
    (h : Async.runIn (createTransactionBuilder (some initial) start) w = (.ok init, w')) :
    places init = places initial ∧ w' = w := by
  have hok : (Async.runIn (createTransactionBuilder (some initial) start) w).1 = .ok init := by
    rw [h]
  rcases Async.bind_ok hok with ⟨state, w₁, hfields, -⟩
  have hrun : Async.runIn (createTransactionBuilder (some initial) start) w = (.ok state, w) := by
    rw [Async.runIn_lift, Prod.mk.injEq] at hfields
    rw [createTransactionBuilder, patchCommand, hfields.1]
    rfl
  rw [Async.runIn_lift, Prod.mk.injEq] at hfields
  rw [hrun, Prod.mk.injEq, Except.ok.injEq] at h
  rw [← h.1, ← h.2, places, signers_patchFields hfields.1, ← places]
  exact ⟨rfl, rfl⟩

/-! ## Whole lives -/

/-- The calls made before each `getCommand` of a trace, when `calls` were made before it. -/
def recipesOf {ω : Type} (calls : List Call) :
    List (Transition.Record BuilderState Event ω) → List (List Call)
  | [] => []
  | r :: trace =>
      match r.event with
      | .call c => recipesOf (calls ++ [c]) trace
      | .getCommand => calls :: recipesOf calls trace

/-- All capabilities that the calls add under a key. -/
def addedCaps (pubKey : JsString) (calls : List Call) : List Cap :=
  ((mentionsOf calls).filter fun s => s.pubKey = pubKey).flatMap Signer.caps

/-- The same signer, with more capabilities. -/
def GrownBy (caps : JsString → List Cap) (row row' : Signer) : Prop :=
  row'.pubKey = row.pubKey ∧ row'.caps = row.caps ++ caps row.pubKey

theorem grownBy_foldl_absorb (row : Signer) (rows : List Signer) :
    (rows.foldl Signer.absorb row).pubKey = row.pubKey ∧
      (rows.foldl Signer.absorb row).caps = row.caps ++ rows.flatMap Signer.caps := by
  rw [foldl_absorb]
  split
  case isTrue h => simp [h]
  case isFalse => simp [Signer.caps]

theorem keys_grownBy {caps : JsString → List Cap} {rows rows' : List Signer}
    (h : List.Forall₂ (GrownBy caps) rows rows') :
    rows'.map Signer.pubKey = rows.map Signer.pubKey := by
  induction h with
  | nil => rfl
  | cons hrow _ ih => rw [List.map_cons, List.map_cons, hrow.1, ih]

theorem grownBy_trans {caps caps' : JsString → List Cap} {rows middle rows' : List Signer}
    (h : List.Forall₂ (GrownBy caps) rows middle) (h' : List.Forall₂ (GrownBy caps') middle rows') :
    List.Forall₂ (GrownBy fun k => caps k ++ caps' k) rows rows' := by
  induction h generalizing rows' with
  | nil =>
      cases h'
      exact .nil
  | cons hrow _ ih =>
      cases h' with
      | cons hrow' hrest =>
          refine .cons ⟨hrow'.1.trans hrow.1, ?_⟩ (ih hrest)
          rw [hrow'.2, hrow.2, hrow.1, List.append_assoc]

section Growth

variable {clock : Nat → Nat} {init : Draft} {reducer : Reducer} {calls : List Call} {w : World}
  {rows : List Signer}

/-- One `getCommand` that succeeds. -/
theorem getCommand_grows (hbuilds : Builds clock init DistinctSigners (places init) reducer calls)
    (hrows : KeyedTable.Reads w.heap (places init) rows)
    (hkeys : (rows.map Signer.pubKey).Nodup) {draft : Draft}
    (hok : (Async.runIn (getCommand reducer) w).1 = .ok draft) :
    ∃ rows', KeyedTable.Reads (Async.runIn (getCommand reducer) w).2.heap (places init) rows' ∧
      List.Forall₂ (GrownBy fun k => addedCaps k calls) rows rows' := by
  have hexist : Exist w.heap init := fun p hp => hrows.length_lt hp
  rcases hexist.readsAs with ⟨v, hv⟩
  have hv' : v.signers.getD [] = rows := KeyedTable.Reads.unique hv.reads hrows
  have hdistinct : DistinctSigners v := by rwa [DistinctSigners, hv']
  have hyields := hbuilds w v hv hdistinct
  cases hrecipe : recipe clock v w.reads calls with
  | error e =>
      rw [hyields.error e hrecipe] at hok
      cases hok
  | ok stage =>
      rcases stage with ⟨cmd, n⟩
      rcases hyields.ok cmd n hrecipe with ⟨draft', hdraft, -, hstands, -, ⟨more, hmore⟩, -⟩
      -- The rows of the finished table begin with those of the initial signers.
      have htable := signers_recipe hrecipe
      have hinitial : KeyedTable.mergeAll Signer.pubKey Signer.absorb [] rows = [] ++ rows :=
        KeyedTable.mergeAll_of_nodup hkeys
      rw [hv', KeyedTable.mergeAll_append, hinitial, List.nil_append] at htable
      rcases @KeyedTable.mergeAll_eq_map _ _ _ Signer.pubKey Signer.absorb rows (mentionsOf calls)
        pubKey_absorb hkeys with ⟨new, hnew⟩
      have hreads := hstands.reads
      rw [htable, hnew, Option.getD_some, ← hmore] at hreads
      refine ⟨_, KeyedTable.Reads.front hreads ?_, ?_⟩
      · rw [List.length_map]
        exact hrows.length_eq
      · rw [List.forall₂_map_right_iff, List.forall₂_same]
        exact fun row _ => grownBy_foldl_absorb row _

end Growth

/-- In every life of a builder in which no `getCommand` fails, the capabilities of an initial signer
are those it had at first, followed, for every `getCommand`, by all those that the calls made until
then add under its key. -/
theorem initial_signers_grow {clock : Nat → Nat} {init : Draft} {heap rows : List Signer}
    {t : BuilderState}
    {trace : List (Transition.Record BuilderState Event (Option (Except Thrown Draft)))}
    (hrows : KeyedTable.Reads heap (places init) rows) (hnodup : (places init).Nodup)
    (hkeys : (rows.map Signer.pubKey).Nodup)
    (h : Transition.Run (builder clock init heap) (builder clock init heap).init trace t)
    (hok : ∀ r ∈ trace, r.event = .getCommand → ∃ draft, r.out = some (.ok draft)) :
    ∃ rows', KeyedTable.Reads t.world.heap (places init) rows' ∧
      List.Forall₂ (GrownBy fun k => (recipesOf [] trace).flatMap (addedCaps k)) rows rows' := by
  -- From any state of a run, with the calls made before it.
  have hrun : ∀ (s : BuilderState) (calls : List Call) (rows : List Signer),
      Transition.Run (builder clock init heap) s trace t →
      Builds clock init DistinctSigners (places init) s.reducer calls →
      KeyedTable.Reads s.world.heap (places init) rows → (rows.map Signer.pubKey).Nodup →
      ∃ rows', KeyedTable.Reads t.world.heap (places init) rows' ∧
        List.Forall₂ (GrownBy fun k => (recipesOf calls trace).flatMap (addedCaps k))
          rows rows' := by
    clear h hrows hkeys
    intro s calls rows hrun
    induction hrun generalizing calls rows with
    | nil s =>
        intro _ hrows _
        refine ⟨rows, hrows, List.forall₂_same.2 fun row _ => ⟨rfl, ?_⟩⟩
        simp [recipesOf]
    | @cons r trace t hvalid _ ih =>
        intro hbuilds hrows hkeys
        have hrest := ih fun r' hr' => hok r' (List.mem_cons_of_mem _ hr')
        rcases step_cases hvalid with
          ⟨c, hevent, hreducer, hworld⟩ | ⟨hevent, hreducer, hout, hworld⟩
        · rw [recipesOf, hevent]
          exact hrest _ rows (hreducer ▸ hbuilds.composeWith c) (hworld ▸ hrows) hkeys
        · rcases hok r List.mem_cons_self hevent with ⟨draft, hdraft⟩
          rw [hout] at hdraft
          rcases getCommand_grows hbuilds hrows hkeys (Option.some.inj hdraft) with
            ⟨middle, hmiddle, hgrown⟩
          have hkeys' : (middle.map Signer.pubKey).Nodup := (keys_grownBy hgrown).symm ▸ hkeys
          rcases hrest calls middle (hreducer ▸ hbuilds) (hworld ▸ hmiddle) hkeys' with
            ⟨rows', hrows', hgrown'⟩
          refine ⟨rows', hrows', ?_⟩
          rw [recipesOf, hevent]
          exact grownBy_trans hgrown hgrown'
  exact hrun _ [] rows h (builds_distinct hnodup) hrows hkeys

/-- An initial command with one signer, which has no capabilities. -/
def sharedInitial : Draft :=
  ({} : Draft).setSigners [0]

/-- What the builder starts from. -/
def sharedDraft : Draft :=
  sharedInitial.setPayload (some (execution [js "(transfer)"]))

def sharedHeap : List Signer :=
  [{ pubKey := publicKeyA, scheme := some .ED25519, address := none, clist := none }]

def sharedAdded : Transition.Record BuilderState Event (Option (Except Thrown Draft)) :=
  called (fun n => 1000 * n) (builder (fun n => 1000 * n) sharedDraft sharedHeap).init transferCall

/-- One `addSigner` with the key of the initial signer, and `getCommand` twice. -/
theorem initial_signers_grow_shared :
    Async.runIn (createTransactionBuilder (some sharedInitial) (.execution [js "(transfer)"]))
      { heap := sharedHeap, reads := 0 } = (.ok sharedDraft, { heap := sharedHeap, reads := 0 }) ∧
    ∃ rows', KeyedTable.Reads (asked (asked sharedAdded.post).post).post.world.heap [0] rows' ∧
      rows'.map (fun row => row.caps.map Cap.name) = [[js "coin.GAS", js "coin.GAS"]] := by
  have hstart : Async.runIn (createTransactionBuilder (some sharedInitial)
      (.execution [js "(transfer)"])) { heap := sharedHeap, reads := 0 } =
        (.ok sharedDraft, { heap := sharedHeap, reads := 0 }) := rfl
  have hplaces : places sharedDraft = [0] := (places_createTransactionBuilder hstart).1
  have hrun : Transition.Run (builder (fun n => 1000 * n) sharedDraft sharedHeap)
      (builder (fun n => 1000 * n) sharedDraft sharedHeap).init
      [sharedAdded, asked sharedAdded.post, asked (asked sharedAdded.post).post]
      (asked (asked sharedAdded.post).post).post :=
    .cons (called_valid _ _ _) (.cons (asked_valid _ _) (.cons (asked_valid _ _) (.nil _)))
  have hok : ∀ r ∈ [sharedAdded, asked sharedAdded.post, asked (asked sharedAdded.post).post],
      r.event = .getCommand → ∃ draft, r.out = some (.ok draft) := by
    intro r hr hevent
    simp only [List.mem_cons, List.not_mem_nil, or_false] at hr
    rcases hr with rfl | rfl | rfl
    · cases hevent
    · exact ⟨_, rfl⟩
    · exact ⟨_, rfl⟩
  have hrows : KeyedTable.Reads sharedHeap (places sharedDraft) sharedHeap :=
    hplaces.symm ▸ .cons rfl .nil
  have hkeys : (sharedHeap.map Signer.pubKey).Nodup := by decide
  rcases initial_signers_grow hrows (by decide) hkeys hrun hok with ⟨rows', hreads, hgrown⟩
  refine ⟨hstart, rows', hplaces ▸ hreads, ?_⟩
  cases hgrown with
  | cons hrow hrest =>
      cases hrest
      rw [List.map_singleton, hrow.2]
      rfl

end Client
end StoaCore
