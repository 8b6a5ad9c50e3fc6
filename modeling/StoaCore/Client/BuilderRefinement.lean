import StoaCore.Client.BuilderSpec

/-!
# BuilderRefinement — the reducer over the heap does what the recipe says

A draft with distinct places stands for the command that its places read as.  Each step of a
composition changes only signers that the draft lists or that the step makes itself, so steps that
agree with the recipe one by one agree with it in sequence.
-/

namespace StoaCore
namespace Client

open Library Library.Js Signing

/-! ## Drafts and the commands they stand for -/

def places (cmd : Draft) : List Nat :=
  cmd.signers.getD []

/-- The draft is the command, with its signers in the heap. -/
structure ReadsAs (heap : List Signer) (cmd : Draft) (v : PactCommand Signer) : Prop where
  rest : v = cmd.withSigners v.signers
  signers : Option.Rel (KeyedTable.Reads heap) cmd.signers v.signers

/-- Objects that were there keep their contents, apart from those at `changed`. -/
structure Frame (changed : List Nat) (w w' : World) : Prop where
  grows : w.heap.length ≤ w'.heap.length
  same : ∀ p < w.heap.length, p ∉ changed → w'.heap[p]? = w.heap[p]?

/-- A computation that starts in `w` does what `spec` says: it writes only to `changed` and to new
objects, and returns a draft whose places begin with `start`. -/
structure Yields (changed start : List Nat) (w : World) (result : Except Thrown Draft × World)
    (spec : Except Thrown Stage) : Prop where
  frame : Frame changed w result.2
  error : ∀ e, spec = .error e → result.1 = .error e
  ok : ∀ v reads, spec = .ok (v, reads) → ∃ cmd, result.1 = .ok cmd ∧ result.2.reads = reads ∧
    ReadsAs result.2.heap cmd v ∧ (places cmd).Nodup ∧ start <+: places cmd ∧
    ∀ p ∈ places cmd, p ∈ changed ∨ w.heap.length ≤ p

/-- A step of the code does what a step of the recipe does. -/
def Implements (f : Draft → Build Draft) (g : Stage → Except Thrown Stage) : Prop :=
  ∀ w cmd v, ReadsAs w.heap cmd v → (places cmd).Nodup →
    Yields (places cmd) (places cmd) w (Async.runIn (f cmd) w) (g (v, w.reads))

section Reading

variable {heap : List Signer} {cmd : Draft} {v : PactCommand Signer}

theorem ReadsAs.reads (h : ReadsAs heap cmd v) :
    KeyedTable.Reads heap (places cmd) (v.signers.getD []) := by
  rcases cmd with ⟨_, _, _, _, signers, _, _⟩
  rcases hv : v.signers with _ | rows
  · have := h.signers
    rw [hv] at this
    cases this
    exact .nil
  · have := h.signers
    rw [hv] at this
    cases this with
    | some hreads => exact hreads

theorem ReadsAs.isNone (h : ReadsAs heap cmd v) : cmd.signers.isNone = v.signers.isNone := by
  have := h.signers
  generalize cmd.signers = s at this
  generalize v.signers = t at this
  cases this <;> rfl

theorem ReadsAs.lt (h : ReadsAs heap cmd v) {p : Nat} (hp : p ∈ places cmd) : p < heap.length :=
  h.reads.length_lt hp

theorem ReadsAs.congr {heap' : List Signer} (h : ReadsAs heap cmd v)
    (hsame : ∀ p ∈ places cmd, heap'[p]? = heap[p]?) : ReadsAs heap' cmd v := by
  refine ⟨h.rest, ?_⟩
  have hsigners := h.signers
  unfold places at hsame
  generalize cmd.signers = s at hsigners hsame
  generalize v.signers = t at hsigners
  cases hsigners with
  | none => exact .none
  | some hreads => exact .some (KeyedTable.Reads.congr hreads hsame)

/-- What a function of the caller is shown is the command itself. -/
theorem ReadsAs.view_eq (h : ReadsAs heap cmd v) : view heap cmd = v := by
  have hfilter : ∀ {ps : List Nat} {rows : List Signer}, KeyedTable.Reads heap ps rows →
      (ps.filterMap fun p => heap[p]?) = rows := by
    intro ps rows hreads
    induction hreads with
    | nil => rfl
    | cons hread _ ih => rw [List.filterMap_cons_some hread, ih]
  have hsigners : (cmd.signers.map fun ps => ps.filterMap fun p => heap[p]?) = v.signers := by
    have hrel := h.signers
    generalize cmd.signers = s at hrel
    generalize v.signers = t at hrel
    cases hrel with
    | none => rfl
    | some hreads => rw [Option.map_some, hfilter hreads]
  rw [view, hsigners]
  exact h.rest.symm

end Reading

/-! ## Frames -/

namespace Frame

variable {changed : List Nat} {w w₁ w₂ : World}

theorem refl (changed : List Nat) (w : World) : Frame changed w w :=
  ⟨le_refl _, fun _ _ _ => rfl⟩

/-- A second step may change what the first has changed or made. -/
theorem trans {changed' : List Nat} (h₁ : Frame changed w w₁) (h₂ : Frame changed' w₁ w₂)
    (hsub : ∀ p ∈ changed', p ∈ changed ∨ w.heap.length ≤ p) : Frame changed w w₂ := by
  refine ⟨h₁.grows.trans h₂.grows, fun p hp hnot => ?_⟩
  have hnot' : p ∉ changed' := by
    intro hmem
    rcases hsub p hmem with hmem | hle
    · exact hnot hmem
    · omega
  rw [h₂.same p (lt_of_lt_of_le hp h₁.grows) hnot', h₁.same p hp hnot]

end Frame

/-! ## Sequences -/

section Sequences

variable {changed start : List Nat} {w : World} {x : Build Draft} {f f' : Draft → Build Draft}
  {spec : Except Thrown Stage} {g g' : Stage → Except Thrown Stage}

theorem Yields.bind (h : Yields changed start w (Async.runIn x w) spec) (hf : Implements f g) :
    Yields changed start w (Async.runIn (x >>= f) w) (spec >>= g) := by
  rcases hx : Async.runIn x w with ⟨r, w₁⟩
  rw [hx] at h
  cases hspec : spec with
  | error e =>
      have hr : r = .error e := h.error e hspec
      subst hr
      rw [Async.runIn_bind_of_error hx]
      refine ⟨h.frame, fun e' he' => ?_, fun v reads hv => by cases hv⟩
      cases he'
      rfl
  | ok stage =>
      rcases stage with ⟨v, reads⟩
      rcases h.ok v reads hspec with ⟨cmd, hr, hreads, hstands, hnodup, hstart, hplaces⟩
      simp only at hr hreads hstands
      subst hr hreads
      rw [Async.runIn_bind_of_ok hx, ok_bind]
      have hnext := hf w₁ cmd v hstands hnodup
      refine ⟨h.frame.trans hnext.frame hplaces, hnext.error, fun v' reads' hv' => ?_⟩
      rcases hnext.ok v' reads' hv' with ⟨cmd', hr', hreads', hstands', hnodup', hstart', hplaces'⟩
      refine ⟨cmd', hr', hreads', hstands', hnodup', hstart.trans hstart', fun p hp => ?_⟩
      rcases hplaces' p hp with hp | hle
      · exact hplaces p hp
      · exact Or.inr (h.frame.grows.trans hle)

theorem Implements.comp (hf : Implements f g) (hf' : Implements f' g') :
    Implements (fun cmd => f cmd >>= f') (fun stage => g stage >>= g') :=
  fun w cmd v hv hnodup => (hf w cmd v hv hnodup).bind hf'

end Sequences

/-! ## Patches -/

section Patches

variable {σ τ : Type}

/-- What the signers are makes no difference to the other members. -/
theorem patchFields_withSigners {ρ υ : Type} (command : PactCommand σ) (patch : PactCommand τ)
    (s : Option (List ρ)) (t : Option (List υ)) :
    patchFields (command.withSigners s) (patch.withSigners t) =
      (patchFields command patch).map fun state => state.withSigners s := by
  rcases patch with ⟨payload, metaData, nonce, networkId, _, _, _⟩
  have hpayload : patchPayload (command.withSigners s) payload =
      (patchPayload command payload).map fun state => state.withSigners s := by
    cases payload with
    | none => rfl
    | some newPayload =>
        have hsame : (command.withSigners s).payload = command.payload := rfl
        simp only [patchPayload, hsame]
        cases mergePayload command.payload (some newPayload) <;> rfl
  simp only [patchFields, PactCommand.withSigners] at hpayload ⊢
  rw [hpayload]
  cases patchPayload command payload with
  | error e => rfl
  | ok state => cases metaData <;> cases nonce <;> cases networkId <;> rfl

theorem signers_patchPayload {command state : PactCommand σ} {newPayload : Option Payload}
    (h : patchPayload command newPayload = .ok state) : state.signers = command.signers := by
  cases newPayload with
  | none =>
      cases h
      rfl
  | some newPayload =>
      simp only [patchPayload] at h
      cases hmerge : mergePayload command.payload (some newPayload) with
      | error e =>
          rw [hmerge] at h
          cases h
      | ok payload =>
          rw [hmerge] at h
          cases h
          rfl

theorem signers_patchFields {command state : PactCommand σ} {patch : PactCommand τ}
    (h : patchFields command patch = .ok state) : state.signers = command.signers := by
  rcases patch with ⟨payload, metaData, nonce, networkId, _, _, _⟩
  rcases bind_ok h with ⟨first, hfirst, hrest⟩
  rw [← signers_patchPayload hfirst]
  cases metaData <;> cases nonce <;> cases networkId <;> cases hrest <;> rfl

theorem patchVerifiers_withSigners (state : PactCommand σ) (s : Option (List τ))
    (verifiers : Option (List Verifier)) :
    patchVerifiers (state.withSigners s) verifiers =
      (patchVerifiers state verifiers).withSigners s := by
  rcases verifiers with _ | _ | _ <;> rfl

theorem signers_patchVerifiers (state : PactCommand σ) (verifiers : Option (List Verifier)) :
    (patchVerifiers state verifiers).signers = state.signers := by
  rcases verifiers with _ | _ | _ <;> rfl

end Patches

section Signers

variable {w : World} {cmd : Draft} {v : PactCommand Signer}

theorem ReadsAs.setSigners {heap heap' : List Signer} (h : ReadsAs heap cmd v) {ps : List Nat}
    {rows : List Signer} (hreads : KeyedTable.Reads heap' ps rows) :
    ReadsAs heap' (cmd.setSigners ps) (v.setSigners rows) := by
  refine ⟨?_, .some hreads⟩
  rw [h.rest]
  rfl

/-- One signer of a patch that the draft does not list yet. -/
theorem patchSigner_reads (h : ReadsAs w.heap cmd v) (hnodup : (places cmd).Nodup) {p : Nat}
    (hfresh : p ∉ places cmd) {signer : Signer} (hp : w.heap[p]? = some signer) :
    ∃ cmd' w', Async.runIn (patchSigner cmd p) w = (.ok cmd', w') ∧ w'.reads = w.reads ∧
      ReadsAs w'.heap cmd' (addRow v signer) ∧ (places cmd').Nodup ∧ places cmd <+: places cmd' ∧
      (∀ q ∈ places cmd', q ∈ places cmd ∨ q = p) ∧ w'.heap.length = w.heap.length ∧
      ∀ q, q ∉ places cmd → w'.heap[q]? = w.heap[q]? := by
  have hstep : KeyedTable.Reads (mergeSigner p signer w.heap (places cmd)).1
      (mergeSigner p signer w.heap (places cmd)).2
      (KeyedTable.merge Signer.pubKey Signer.absorb signer (v.signers.getD [])) :=
    KeyedTable.mergePlace_reads h.reads hnodup hfresh hp
  have hplaces : (mergeSigner p signer w.heap (places cmd)).2.Nodup ∧
      ∀ q ∈ (mergeSigner p signer w.heap (places cmd)).2, q ∈ places cmd ∨ q = p :=
    KeyedTable.mergePlace_places hnodup hfresh
  have hprefix : places cmd <+: (mergeSigner p signer w.heap (places cmd)).2 :=
    KeyedTable.prefix_mergePlace
  have hlength : (mergeSigner p signer w.heap (places cmd)).1.length = w.heap.length :=
    KeyedTable.mergePlace_length
  have hrun : Async.runIn (patchSigner cmd p) w =
      (.ok (cmd.setSigners (mergeSigner p signer w.heap (places cmd)).2),
        { w with heap := (mergeSigner p signer w.heap (places cmd)).1 }) := by
    rw [patchSigner, Build.runIn_act]
    simp only [hp]
    rfl
  exact ⟨_, _, hrun, rfl, h.setSigners hstep, hplaces.1, hprefix, hplaces.2, hlength,
    fun q hq => KeyedTable.mergePlace_frame hq⟩

/-- All signers of a patch. -/
theorem patchSigners_reads {ps : List Nat} {rows : List Signer}
    (hrows : KeyedTable.Reads w.heap ps rows) (h : ReadsAs w.heap cmd v)
    (hnodup : (places cmd ++ ps).Nodup) :
    ∃ cmd' w', Async.runIn (ps.foldlM patchSigner cmd) w = (.ok cmd', w') ∧ w'.reads = w.reads ∧
      ReadsAs w'.heap cmd' (rows.foldl addRow v) ∧ (places cmd').Nodup ∧
      places cmd <+: places cmd' ∧ (∀ q ∈ places cmd', q ∈ places cmd ++ ps) ∧
      w'.heap.length = w.heap.length ∧
      ∀ q, q ∉ places cmd ++ ps → w'.heap[q]? = w.heap[q]? := by
  -- On the places of the patch; those still to come are not listed, so no step writes to them.
  induction ps generalizing w cmd v rows with
  | nil =>
      cases hrows
      rw [List.append_nil] at hnodup
      exact ⟨cmd, w, rfl, rfl, h, hnodup, List.prefix_refl _, fun q hq => by simpa using hq, rfl,
        fun q _ => rfl⟩
  | cons p ps ih =>
      cases hrows with
      | @cons _ signer _ rows hp hrows =>
          rw [List.nodup_append] at hnodup
          rcases hnodup with ⟨hcmd, hps, hdisjoint⟩
          rw [List.nodup_cons] at hps
          have hfresh : p ∉ places cmd := fun hmem => hdisjoint p hmem p (by simp) rfl
          rcases patchSigner_reads h hcmd hfresh hp with
            ⟨cmd₁, w₁, hrun, hreads, hstands, hnodup₁, hprefix, hplaces, hlength, hframe⟩
          have hrows₁ : KeyedTable.Reads w₁.heap ps rows := by
            refine KeyedTable.Reads.congr hrows fun q hq => hframe q fun hmem => ?_
            exact hdisjoint q hmem q (by simp [hq]) rfl
          have hnodup₂ : (places cmd₁ ++ ps).Nodup := by
            refine List.nodup_append.2 ⟨hnodup₁, hps.2, fun a ha b hb heq => ?_⟩
            subst heq
            rcases hplaces a ha with hmem | rfl
            · exact hdisjoint a hmem a (by simp [hb]) rfl
            · exact hps.1 hb
          rcases ih hrows₁ hstands hnodup₂ with
            ⟨cmd₂, w₂, hrun₂, hreads₂, hstands₂, hnodup₃, hprefix₂, hplaces₂, hlength₂, hframe₂⟩
          refine ⟨cmd₂, w₂, ?_, hreads₂.trans hreads, hstands₂, hnodup₃, hprefix.trans hprefix₂,
            fun q hq => ?_, hlength₂.trans hlength, fun q hq => ?_⟩
          · rw [List.foldlM_cons, Async.runIn_bind_of_ok hrun]
            exact hrun₂
          · rcases List.mem_append.1 (hplaces₂ q hq) with hmem | hmem
            · rcases hplaces q hmem with hmem | rfl
              · simp [hmem]
              · simp
            · simp [hmem]
          · rw [List.mem_append, List.mem_cons, not_or, not_or] at hq
            have hq₁ : q ∉ places cmd₁ ++ ps := by
              rw [List.mem_append, not_or]
              refine ⟨fun hmem => ?_, hq.2.2⟩
              rcases hplaces q hmem with hmem | heq
              · exact hq.1 hmem
              · exact hq.2.1 heq
            rw [hframe₂ q hq₁, hframe q hq.1]

/-- A patch whose signers the draft does not list yet. -/
theorem yields_patchCommand {patch : Draft} {patch' : PactCommand Signer}
    (h : ReadsAs w.heap cmd v) (hpatch : ReadsAs w.heap patch patch')
    (hnodup : (places cmd ++ places patch).Nodup) :
    Yields (places cmd ++ places patch) (places cmd) w (Async.runIn (patchCommand cmd patch) w)
      ((patchValue v patch').map fun v' => (v', w.reads)) := by
  have hfields : patchFields v patch' =
      (patchFields cmd patch).map fun state => state.withSigners v.signers := by
    rw [h.rest, hpatch.rest]
    exact patchFields_withSigners cmd patch _ _
  have hlift : Async.runIn (Async.lift (patchFields cmd patch)) w = (patchFields cmd patch, w) :=
    Async.runIn_lift _ w
  unfold patchCommand patchValue
  rw [hfields]
  cases hstate : patchFields cmd patch with
  | error e =>
      rw [hstate] at hlift
      rw [Async.runIn_bind_of_error hlift]
      refine ⟨Frame.refl _ w, fun e' he' => ?_, fun v' reads hv' => by cases hv'⟩
      cases he'
      rfl
  | ok state =>
      rw [hstate] at hlift
      rw [Async.runIn_bind_of_ok hlift]
      have hsame := signers_patchFields hstate
      have hplaces : places state = places cmd := by rw [places, hsame, places]
      have hstands : ReadsAs w.heap state (state.withSigners v.signers) :=
        ⟨rfl, hsame ▸ h.signers⟩
      rw [← hplaces] at hnodup ⊢
      rcases patchSigners_reads hpatch.reads hstands hnodup with
        ⟨cmd', w', hrun, hreads, hstands', hnodup', hprefix, hsub, hlength, hframe⟩
      have hrun' : Async.runIn ((patch.signers.getD []).foldlM patchSigner state) w =
          (.ok cmd', w') := hrun
      rw [Async.runIn_bind_of_ok hrun']
      have hverifiers : patch'.verifiers = patch.verifiers := by rw [hpatch.rest]; rfl
      refine ⟨⟨hlength.ge, fun q _ hq => hframe q hq⟩, fun e he => (by cases he),
        fun v' reads hv' => ?_⟩
      cases hv'
      have hlast : places (patchVerifiers cmd' patch.verifiers) = places cmd' := by
        rw [places, signers_patchVerifiers, places]
      refine ⟨_, rfl, hreads, ⟨?_, ?_⟩, hlast ▸ hnodup', hlast ▸ hprefix,
        fun q hq => Or.inl (hsub q (hlast ▸ hq))⟩
      · rw [hverifiers, signers_patchVerifiers, ← patchVerifiers_withSigners, ← hstands'.rest]
      · rw [hverifiers, signers_patchVerifiers, signers_patchVerifiers]
        exact hstands'.signers

/-- A patch without signers. -/
theorem yields_patch {patch : Draft} {patch' : PactCommand Signer} (h : ReadsAs w.heap cmd v)
    (hnodup : (places cmd).Nodup) (hpatch : patch' = patch.withSigners none)
    (hnone : patch.signers = none) :
    Yields (places cmd) (places cmd) w (Async.runIn (patchCommand cmd patch) w)
      ((patchValue v patch').map fun v' => (v', w.reads)) := by
  have hplaces : places patch = [] := by rw [places, hnone]; rfl
  have hreads : ReadsAs w.heap patch patch' := by
    refine ⟨by rw [hpatch]; rfl, ?_⟩
    rw [hnone, hpatch]
    exact .none
  have hyields := yields_patchCommand h hreads (by rwa [hplaces, List.append_nil])
  rwa [hplaces, List.append_nil] at hyields

/-- The objects of one `addSigner`, made in order. -/
theorem runIn_newSigners (items : List SignerArg) (clist : Option (List Cap)) (w : World) :
    ∃ ps, Async.runIn (items.mapM fun item => newSigner (signerOf clist item)) w =
        (.ok ps, { w with heap := w.heap ++ items.map (signerOf clist) }) ∧
      KeyedTable.Reads (w.heap ++ items.map (signerOf clist)) ps (items.map (signerOf clist)) ∧
      ps.Nodup ∧ ∀ p ∈ ps, w.heap.length ≤ p := by
  induction items generalizing w with
  | nil =>
      refine ⟨[], ?_, .nil, List.nodup_nil, fun p hp => by cases hp⟩
      rw [List.map_nil, List.append_nil]
      rfl
  | cons item items ih =>
      have hhead : Async.runIn (newSigner (signerOf clist item)) w =
          (.ok w.heap.length, { w with heap := w.heap ++ [signerOf clist item] }) := rfl
      rcases ih { w with heap := w.heap ++ [signerOf clist item] } with
        ⟨ps, hrun, hreads, hnodup, hfresh⟩
      simp only [List.append_assoc, List.singleton_append, List.length_append,
        List.length_singleton] at hrun hreads hfresh
      refine ⟨w.heap.length :: ps, ?_, .cons (by simp) hreads, ?_, fun p hp => ?_⟩
      · rw [List.mapM_cons, Async.runIn_bind_of_ok hhead, Async.runIn_bind_of_ok hrun]
        rfl
      · refine List.nodup_cons.2 ⟨fun hmem => ?_, hnodup⟩
        have := hfresh _ hmem
        omega
      · rcases List.mem_cons.1 hp with rfl | hp
        · exact le_refl _
        · have := hfresh p hp
          omega

end Signers

/-! ## The calls -/

section Calls

variable {w : World} {cmd : Draft} {v : PactCommand Signer}

theorem yields_addData (h : ReadsAs w.heap cmd v) (hnodup : (places cmd).Nodup) (key : JsString)
    (value : Value) :
    Yields (places cmd) (places cmd) w (Async.runIn (addData key value cmd) w)
      ((addDataValue v key value).map fun v' => (v', w.reads)) := by
  have hpayload : v.payload = cmd.payload := by rw [h.rest]; rfl
  unfold addData addDataValue
  rw [hpayload]
  by_cases htaken : hasData cmd.payload key = true
  · rw [if_pos htaken, if_pos htaken]
    refine ⟨Frame.refl _ w, fun e he => ?_, fun v' reads hv' => by cases hv'⟩
    cases he
    rfl
  · rw [if_neg htaken, if_neg htaken]
    exact yields_patch h hnodup rfl rfl

theorem yields_addSigner (h : ReadsAs w.heap cmd v) (hnodup : (places cmd).Nodup)
    (items : List SignerArg) (clist : Option (List Cap)) :
    Yields (places cmd) (places cmd) w (Async.runIn (addSigner items clist cmd) w)
      ((callValue v (.addSigner items clist)).map fun v' => (v', w.reads)) := by
  rcases runIn_newSigners items clist w with ⟨ps, hrun, hreads, hps, hfresh⟩
  have hold : ReadsAs (w.heap ++ items.map (signerOf clist)) cmd v :=
    h.congr fun p hp => List.getElem?_append_left (h.lt hp)
  have hpatch : ReadsAs (w.heap ++ items.map (signerOf clist)) { signers := some ps }
      { signers := some (items.map (signerOf clist)) } := ⟨rfl, .some hreads⟩
  have hdisjoint : (places cmd ++ ps).Nodup := by
    refine List.nodup_append.2 ⟨hnodup, hps, fun a ha b hb heq => ?_⟩
    have hlt := h.lt ha
    have hle := hfresh b hb
    omega
  have hyields := @yields_patchCommand { w with heap := w.heap ++ items.map (signerOf clist) }
    cmd v _ _ hold hpatch hdisjoint
  -- The new objects lie behind the heap, so writing to them changes nothing that was there.
  have hgrow : Frame (places cmd) w { w with heap := w.heap ++ items.map (signerOf clist) } :=
    ⟨by simp, fun p hp _ => List.getElem?_append_left hp⟩
  have hsub : ∀ p ∈ places cmd ++ ps, p ∈ places cmd ∨ w.heap.length ≤ p := by
    intro p hp
    rcases List.mem_append.1 hp with hp | hp
    · exact Or.inl hp
    · exact Or.inr (hfresh p hp)
  rw [addSigner, Async.runIn_bind_of_ok hrun]
  refine ⟨hgrow.trans hyields.frame hsub, hyields.error, fun v' reads hv' => ?_⟩
  rcases hyields.ok v' reads hv' with ⟨cmd', hr, hreads', hstands, hnodup', hprefix, hplaces⟩
  refine ⟨cmd', hr, hreads', hstands, hnodup', hprefix, fun p hp => ?_⟩
  rcases hplaces p hp with hp | hle
  · exact hsub p hp
  · exact Or.inr (hgrow.grows.trans hle)

/-- Every call of the builder does what the recipe says of it. -/
theorem implements_call (c : Call) :
    Implements (fun cmd => Step.apply cmd c.step)
      (fun stage => (callValue stage.1 c).map fun v => (v, stage.2)) := by
  intro w cmd v h hnodup
  have hmeta : v.metaData = cmd.metaData := by rw [h.rest]; rfl
  cases c with
  | addData key value => exact yields_addData h hnodup key value
  | addKeyset key pred publicKeys => exact yields_addData h hnodup key _
  | addSigner signers clist => exact yields_addSigner h hnodup signers clist
  | addVerifier name proof clist => exact yields_patch h hnodup rfl rfl
  | setMeta options => exact yields_patch h hnodup (by rw [hmeta]; rfl) rfl
  | setNetworkId id => exact yields_patch h hnodup rfl rfl
  | setNonce arg =>
      have hseen : Async.runIn (Build.act fun w => (view w.heap cmd, w)) w = (.ok v, w) := by
        rw [Build.runIn_act, h.view_eq]
      change Yields _ _ _ (Async.runIn (setNonce arg cmd) w) _
      rw [setNonce, Async.runIn_bind_of_ok hseen]
      exact yields_patch h hnodup rfl rfl

end Calls

/-! ## Finalization -/

section Clock

variable (clock : Nat → Nat)

theorem runIn_finalizeCommand {σ : Type} (command : PactCommand σ) (w : World) :
    Async.runIn (finalizeCommand clock command) w =
      (.ok (finalized clock command w.reads).1,
        { w with reads := (finalized clock command w.reads).2 }) := by
  rcases command with ⟨payload, metaData, nonce, networkId, signers, verifiers, names⟩
  cases metaData <;> cases nonce <;> cases signers <;> rfl

/-- The finalization makes the list of signers, but no signer. -/
theorem finalized_withSigners {σ τ : Type} (command : PactCommand σ) {s : Option (List τ)}
    (hs : command.signers.isNone = s.isNone) (reads : Nat) :
    finalized clock (command.withSigners s) reads =
      ((finalized clock command reads).1.withSigners (some (s.getD [])),
        (finalized clock command reads).2) := by
  rcases command with ⟨payload, metaData, nonce, networkId, signers, verifiers, names⟩
  cases signers with
  | none =>
      cases s with
      | none => cases metaData <;> cases nonce <;> rfl
      | some rows => cases hs
  | some ps =>
      cases s with
      | none => cases hs
      | some rows => cases metaData <;> cases nonce <;> rfl

theorem implements_finalizeCommand :
    Implements (finalizeCommand clock) (fun stage => .ok (finalized clock stage.1 stage.2)) := by
  intro w cmd v h hnodup
  have hplaces : places (finalized clock cmd w.reads).1 = places cmd := by
    rw [places, signers_finalized]
    rfl
  have hspec : finalized clock v w.reads =
      ((finalized clock cmd w.reads).1.withSigners (some (v.signers.getD [])),
        (finalized clock cmd w.reads).2) := by
    rw [h.rest]
    exact finalized_withSigners clock cmd h.isNone w.reads
  rw [runIn_finalizeCommand]
  refine ⟨⟨le_refl _, fun p _ _ => rfl⟩, fun e he => (by cases he), fun v' reads hv' => ?_⟩
  change Except.ok (finalized clock v w.reads) = .ok (v', reads) at hv'
  rw [hspec] at hv'
  cases hv'
  refine ⟨_, rfl, rfl, ⟨rfl, ?_⟩, hplaces.symm ▸ hnodup, hplaces.symm ▸ List.prefix_refl _,
    fun p hp => Or.inl (hplaces ▸ hp)⟩
  rw [signers_finalized]
  exact .some h.reads

end Clock

end Client
end StoaCore
