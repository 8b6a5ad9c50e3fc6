import StoaCore.Signing.KeySelection

/-!
# KeyRequests — which keys the resolver is asked for

Every `getKeyPairByPublicKey` may prompt for a password.  A recording resolver answers like the
one it wraps and notes each key it is asked for; the strategy cannot see the notes, so its runs are
the same.  The notes show that up to the first build each codex key that signs for a guard has
been asked for once, the gas key once, and no other key.
-/

namespace StoaCore
namespace Signing

open Library.Js
open Library.Traced
open Guard

/-! ## Recording -/

/-- Does what `x` does and adds `keys` to the notes. -/
def Async.recording {σ α : Type} (x : Async σ α) (keys : List JsString) :
    Async (σ × List JsString) α :=
  ExceptT.mk fun w => ((Async.runIn x w.1).1, ((Async.runIn x w.1).2, w.2 ++ keys))

def KeyResolver.recording {σ : Type} (R : KeyResolver σ) : KeyResolver (σ × List JsString) where
  listCodexPubs := R.listCodexPubs.recording []
  getKeyPairByPublicKey := fun pub => (R.getKeyPairByPublicKey pub).recording [pub]
  requestForeignKey := R.requestForeignKey.map fun request pub => (request pub).recording []

def PactClient.recording {σ : Type} (client : PactClient σ) : PactClient (σ × List JsString) where
  dirtyRead := fun tx w => ((client.dirtyRead tx w.1).1, ((client.dirtyRead tx w.1).2, w.2))
  submit := fun tx w => ((client.submit tx w.1).1, ((client.submit tx w.1).2, w.2))

def Strategy.recording {σ : Type} (S : Strategy σ) : Strategy (σ × List JsString) where
  resolver := S.resolver.recording
  client := S.client.recording
  backend := S.backend
  environment :=
    { dateNow := fun w => S.environment.dateNow w.1
      failover := fun w => S.environment.failover w.1
      arithmetic := S.environment.arithmetic }

def ExecuteArgs.recording {σ : Type} (args : ExecuteArgs σ) :
    ExecuteArgs (σ × List JsString) where
  build := fun ctx => (args.build ctx).recording []
  guards := args.guards
  paymentKey := args.paymentKey
  resolvedForeignKeys := args.resolvedForeignKeys
  extraSigners := args.extraSigners

theorem KeyResolver.Faithful.recording {σ : Type} {R : KeyResolver σ} (h : R.Faithful) :
    R.recording.Faithful :=
  fun pub w kp hkp => h pub w.1 kp hkp

namespace Strategy

variable {σ : Type} {S : Strategy σ} {args : ExecuteArgs σ}

/-! ## Recording changes no run -/

theorem erases_invoke {α : Type} (x : Async σ α) (keys : List JsString) :
    Erases (invoke (x.recording keys) : Prog ExecuteError (σ × List JsString) Event α)
      (invoke x) :=
  Erases.call fun _ _ => rfl

theorem erases_collectKey (analysis : GuardAnalysis) (c : Collected) (pub : JsString) :
    Erases (S.recording.collectKey args.recording analysis c pub)
      (S.collectKey args analysis c pub) := by
  unfold collectKey
  split
  · exact Erases.pure c
  · refine Erases.bind ?_ fun kp => Erases.pure _
    unfold keypairFor
    split
    · exact Erases.pure _
    · exact erases_invoke _ _

theorem erases_detectSmartAccountGuards (codexPubs : StringSet) :
    Erases (S.recording.detectSmartAccountGuards args.recording codexPubs)
      (S.detectSmartAccountGuards args codexPubs) := by
  have hguards : args.recording.guards.findSome?
      (smartAccountSurface S.recording.environment.arithmetic codexPubs) =
      args.guards.findSome? (smartAccountSurface S.environment.arithmetic codexPubs) := rfl
  unfold detectSmartAccountGuards
  rw [hguards]
  cases args.guards.findSome? (smartAccountSurface S.environment.arithmetic codexPubs) with
  | none => exact Erases.pure ()
  | some matchedSurface => exact Erases.throw _

theorem erases_preflight (codexPubs : StringSet) :
    Erases (S.recording.preflight args.recording codexPubs) (S.preflight args codexPubs) := by
  have hfirst : firstForeignKey args.recording.guards codexPubs
      args.recording.resolvedForeignKeys =
      firstForeignKey args.guards codexPubs args.resolvedForeignKeys := rfl
  have hrequest : S.recording.resolver.requestForeignKey =
      S.resolver.requestForeignKey.map fun request pub => (request pub).recording [] := rfl
  unfold preflight
  rw [hfirst, hrequest]
  -- The wrapped resolver can ask for keys exactly when the original can.
  cases S.resolver.requestForeignKey with
  | some request => exact Erases.pure ()
  | none =>
      cases firstForeignKey args.guards codexPubs args.resolvedForeignKeys with
      | none => exact Erases.pure ()
      | some pub => exact Erases.throw _

theorem erases_untilCollected (codexPubs : StringSet) :
    Erases (S.recording.untilCollected args.recording codexPubs)
      (S.untilCollected args codexPubs) := by
  unfold untilCollected
  refine Erases.bind (erases_detectSmartAccountGuards codexPubs) fun _ => ?_
  refine Erases.bind (erases_preflight codexPubs) fun _ => ?_
  unfold collectGuardKeypairs
  apply Erases.foldlM
  intro c guard
  apply Erases.foldlM
  exact fun c pub => erases_collectKey _ c pub

theorem erases_selectCaps (codexPubs : StringSet) (c : Collected) :
    Erases (S.recording.selectCaps args.recording codexPubs c) (S.selectCaps args codexPubs c) := by
  unfold selectCaps
  refine Erases.bind ?_ fun key => Erases.bind (erases_invoke _ _) fun kp => Erases.pure _
  unfold capsKeyPub
  dsimp only [ExecuteArgs.recording]
  split
  · exact Erases.throw _
  · split
    · exact Erases.throw _
    · exact Erases.pure _

/-- With its notes forgotten, a recorded run up to the first build is the run itself. -/
theorem erases_untilSelected :
    Erases (S.recording.untilSelected args.recording) (S.untilSelected args) := by
  unfold untilSelected
  refine Erases.bind (erases_invoke _ _) fun codexPubs => ?_
  exact Erases.bind (erases_untilCollected codexPubs) fun c => erases_selectCaps codexPubs c

/-! ## What the notes say -/

/-- The notes hold the codex keys among the collected keys, in the order of their collection. -/
def Noted (codexPubs : StringSet) (c : Collected) (t : Trace (σ × List JsString) Event) : Prop :=
  t.world.2 = c.pureSigningPubs.elements.filter codexPubs.has

theorem leads_invoke {α : Type} {x : Async σ α} {keys : List JsString}
    {P : Trace (σ × List JsString) Event → Prop}
    {Q : α → Trace (σ × List JsString) Event → Prop}
    (h : ∀ t, P t → ∀ a w', Async.runIn x t.world.1 = (.ok a, w') →
      Q a { world := (w', t.world.2 ++ keys), events := t.events }) :
    Leads P (invoke (x.recording keys)) Q := by
  apply Leads.call
  intro t ht a ha
  apply h t ht a
  cases hx : (Async.runIn x t.world.1).1 with
  | ok b =>
      have hresult : (Async.runIn (x.recording keys) t.world).1 = .ok b := hx
      rw [hresult] at ha
      cases ha
      exact Prod.ext hx rfl
  | error e =>
      have hresult : (Async.runIn (x.recording keys) t.world).1 = .error e := hx
      rw [hresult] at ha
      cases ha

/-- One more key: the resolver is asked for it if it is a codex key, and not otherwise. -/
theorem leads_collectKey {codexPubs : StringSet} {guard : Keyset} (c : Collected)
    {pub : JsString} (hpub : pub ∈ takenKeys S.environment.arithmetic codexPubs
      args.resolvedForeignKeys guard) :
    Leads (Noted codexPubs c)
      (S.recording.collectKey args.recording (S.analysisOf args codexPubs guard) c pub)
      (Noted codexPubs) := by
  unfold collectKey
  split
  case isTrue => exact Leads.pure fun t ht => ht
  case isFalse hnew =>
    have hnot : pub ∉ c.pureSigningPubs.elements := fun h => hnew ((StringSet.has_iff _ _).2 h)
    have hadd := StringSet.elements_add_of_not_mem hnot
    unfold keypairFor
    split
    case isTrue hresolved =>
      -- A foreign key becomes its own keypair, and the notes have nothing to say of it.
      refine Leads.bind (Leads.pure (Q := fun _ => Noted codexPubs c) fun t ht => ht) fun kp => ?_
      apply Leads.pure
      intro t ht
      have hforeign := resolved_not_codex _ _ _ hresolved
      simpa [Noted, hadd, List.filter_append, hforeign] using ht
    case isFalse hresolved =>
      have hcodex : codexPubs.has pub = true := by
        rcases (taken_cases _ _ _ hpub).2 with ⟨-, hhas⟩ | ⟨hforeign, -, -⟩
        · exact hhas
        · exact absurd hforeign hresolved
      refine Leads.bind (leads_invoke (Q := fun _ t =>
        t.world.2 = c.pureSigningPubs.elements.filter codexPubs.has ++ [pub]) ?_) fun kp => ?_
      · intro t ht a w' _
        exact congrArg (· ++ [pub]) ht
      · apply Leads.pure
        intro t ht
        simpa [Noted, hadd, List.filter_append, hcodex] using ht

theorem leads_untilCollected (codexPubs : StringSet) :
    Leads (fun t => t.world.2 = []) (S.recording.untilCollected args.recording codexPubs)
      (Noted codexPubs) := by
  unfold untilCollected
  refine Leads.bind (Q := fun _ t => t.world.2 = []) ?_ fun _ => ?_
  · unfold detectSmartAccountGuards
    split
    · exact Leads.throw _
    · exact Leads.pure fun t ht => ht
  refine Leads.bind (Q := fun _ t => t.world.2 = []) ?_ fun _ => ?_
  · unfold preflight
    split
    · exact Leads.throw _
    · exact Leads.pure fun t ht => ht
  unfold collectGuardKeypairs
  refine Leads.mono (Leads.foldlM (Noted codexPubs) _ ?_ _) (fun t ht => ht) fun _ _ h => h
  intro c guard _
  unfold collectGuard
  apply Leads.foldlM
  exact fun c pub hpub => leads_collectKey c hpub

/-- The gas key is asked for last. -/
theorem leads_selectCaps (codexPubs : StringSet) (c : Collected) :
    Leads (Noted codexPubs c) (S.recording.selectCaps args.recording codexPubs c)
      (fun sel t => sel.collected = c ∧
        ∃ key, (selectCapsSigningKey args.paymentKey codexPubs c.pureSigningPubs).key =
          some key ∧ t.world.2 = c.pureSigningPubs.elements.filter codexPubs.has ++ [key]) := by
  unfold selectCaps
  refine Leads.bind (Q := fun key t => Noted codexPubs c t ∧
    (selectCapsSigningKey args.paymentKey codexPubs c.pureSigningPubs).key = some key) ?_
      fun key => ?_
  · unfold capsKeyPub
    dsimp only [ExecuteArgs.recording]
    split
    · exact Leads.throw _
    · split
      case h_1 => exact Leads.throw _
      case h_2 key hkey =>
        exact Leads.pure fun t ht => ⟨ht, (truthyKey_eq_some.1 hkey).1⟩
  refine Leads.bind (leads_invoke (Q := fun _ t =>
    t.world.2 = c.pureSigningPubs.elements.filter codexPubs.has ++ [key] ∧
      (selectCapsSigningKey args.paymentKey codexPubs c.pureSigningPubs).key = some key) ?_)
    fun kp => ?_
  · rintro t ⟨hnoted, hkey⟩ a w' _
    exact ⟨congrArg (· ++ [key]) hnoted, hkey⟩
  · apply Leads.pure
    rintro t ⟨hnoted, hkey⟩
    exact ⟨rfl, key, hkey, hnoted⟩

/-- The keys the resolver has been asked for when the first build is due. -/
def requestedKeys (S : Strategy σ) (args : ExecuteArgs σ) (w : σ) : List JsString :=
  (run (S.recording.untilSelected args.recording) { world := (w, []), events := [] }).2.world.2

/-- When a selection has been made, the resolver has been asked for the codex keys of the guards
and then for the gas key. -/
theorem requestedKeys_of_selected {w w' : σ} {codexPubs : StringSet} {sel : Selected}
    {t : Trace σ Event} (hlist : Async.runIn S.resolver.listCodexPubs w = (.ok codexPubs, w'))
    (hsel : run (S.untilSelected args) { world := w, events := [] } = (.ok sel, t)) :
    ∃ key, (selectCapsSigningKey args.paymentKey codexPubs
        sel.collected.pureSigningPubs).key = some key ∧
      S.requestedKeys args w =
        sel.collected.pureSigningPubs.elements.filter codexPubs.has ++ [key] := by
  have herases : Erases (S.recording.untilSelected args.recording) (S.untilSelected args) :=
    erases_untilSelected
  rcases herases.ok_of_run (t := { world := (w, []), events := [] }) hsel with ⟨u, hrun, -⟩
  have hlist' : Async.runIn S.recording.resolver.listCodexPubs (w, []) =
      (.ok codexPubs, (w', [])) := by
    change ((Async.runIn S.resolver.listCodexPubs w).1,
      ((Async.runIn S.resolver.listCodexPubs w).2, ([] : List JsString))) = _
    rw [hlist]
  have hleads : Leads (fun t => t.world.2 = [])
      (do
        let collected ← S.recording.untilCollected args.recording codexPubs
        S.recording.selectCaps args.recording codexPubs collected)
      (fun sel t => ∃ key, (selectCapsSigningKey args.paymentKey codexPubs
          sel.collected.pureSigningPubs).key = some key ∧
        t.world.2 = sel.collected.pureSigningPubs.elements.filter codexPubs.has ++ [key]) := by
    refine Leads.bind (leads_untilCollected codexPubs) fun c => ?_
    refine Leads.mono (leads_selectCaps codexPubs c) (fun _ h => h) ?_
    rintro sel t ⟨rfl, hkey⟩
    exact hkey
  rw [requestedKeys, hrun]
  rw [run_untilSelected hlist'] at hrun
  exact hleads _ rfl sel u hrun

end Strategy

/-! ## The selection is sound -/

/-- What a caller may expect of the context of a build, given the keys the resolver has been asked
for. -/
structure SoundSelection {σ : Type} (args : ExecuteArgs σ) (codexPubs : StringSet)
    (requested : List JsString) (ctx : BuildContext) : Prop where
  caps_codex : codexPubs.has ctx.capsKeyPub = true
  caps_free : ctx.capsKeyPub ∉ ctx.guardPubs
  caps_payment : ∀ key, args.paymentKey = some key → codexPubs.has key = true →
    key ∉ ctx.guardPubs → ctx.capsKeyPub = key
  nodup : ctx.guardPubs.Nodup
  entries : ∀ pub ∈ ctx.guardPubs, (∃ guard ∈ args.guards, pub ∈ guard.keys) ∧
    Usable codexPubs args.resolvedForeignKeys pub
  once : ∀ pub, requested.count pub =
    if pub = ctx.capsKeyPub ∨ pub ∈ ctx.guardPubs ∧ codexPubs.has pub = true then 1 else 0

/-- The key is in no codex and no entry of its own, but it is the name of a member that every
object inherits. -/
def OnlyInherited (codexPubs : StringSet) (resolvedForeignKeys : Record JsString)
    (pub : JsString) : Prop :=
  codexPubs.has pub = false ∧ resolvedForeignKeys.hasOwn pub = false ∧
    (objectPrototype.lookup pub).isSome = true

instance (codexPubs : StringSet) (resolvedForeignKeys : Record JsString) (pub : JsString) :
    Decidable (OnlyInherited codexPubs resolvedForeignKeys pub) :=
  inferInstanceAs (Decidable (_ ∧ _ ∧ _))

/-- An entry that looks resolved is a non-empty one, or the object's own inheritance. -/
theorem usable_or_onlyInherited {codexPubs : StringSet} {resolvedForeignKeys : Record JsString}
    {pub : JsString} (hcodex : codexPubs.has pub = false)
    (h : (resolvedForeignKeys.truthyText pub).isSome = true) :
    Usable codexPubs resolvedForeignKeys pub ↔
      ¬ OnlyInherited codexPubs resolvedForeignKeys pub := by
  unfold Record.truthyText Record.property at h
  cases hlookup : resolvedForeignKeys.lookup pub with
  | none =>
      rw [hlookup] at h
      have hmember : (objectPrototype.lookup pub).isSome = true := by
        cases hinherited : objectPrototype.lookup pub with
        | none => simp [hinherited] at h
        | some text => rfl
      refine iff_of_false ?_ (not_not.2 ⟨hcodex, by simp [Record.hasOwn, hlookup], hmember⟩)
      rintro (hhas | ⟨text, hsome, -⟩)
      · rw [hcodex] at hhas
        cases hhas
      · rw [hlookup] at hsome
        cases hsome
  | some text =>
      rw [hlookup] at h
      refine iff_of_true (Or.inr ⟨text, hlookup, ?_⟩) ?_
      · rintro rfl
        cases h
      · rintro ⟨-, hown, -⟩
        simp [Record.hasOwn, hlookup] at hown

section Exact

variable {σ : Type} {S : Strategy σ} {args : ExecuteArgs σ} {w w' : σ} {codexPubs : StringSet}

/-- The entries of the guards are usable exactly where no guard takes an inherited member. -/
theorem selected_usable_iff :
    (∀ pub ∈ (S.selected args codexPubs).elements,
      (∃ guard ∈ args.guards, pub ∈ guard.keys) ∧
        Usable codexPubs args.resolvedForeignKeys pub) ↔
      ∀ guard ∈ args.guards, ∀ pub ∈ takenKeys S.environment.arithmetic codexPubs
        args.resolvedForeignKeys guard,
        ¬ OnlyInherited codexPubs args.resolvedForeignKeys pub := by
  constructor
  · intro h guard hguard pub htaken
    have husable := (h pub ((mem_selectedPubs _ _ _).2 ⟨guard, hguard, htaken⟩)).2
    rcases (taken_cases _ _ _ htaken).2 with ⟨-, hcodex⟩ | ⟨-, hforeign, hresolved⟩
    · rintro ⟨hnot, -⟩
      rw [hcodex] at hnot
      cases hnot
    · exact (usable_or_onlyInherited hforeign hresolved).1 husable
  · intro h pub hpub
    rcases (mem_selectedPubs _ _ _).1 hpub with ⟨guard, hguard, htaken⟩
    rcases taken_cases _ _ _ htaken with ⟨hkey, ⟨-, hcodex⟩ | ⟨-, hforeign, hresolved⟩⟩
    · exact ⟨⟨guard, hguard, hkey⟩, Or.inl hcodex⟩
    · exact ⟨⟨guard, hguard, hkey⟩,
        (usable_or_onlyInherited hforeign hresolved).2 (h guard hguard pub htaken)⟩

theorem count_requested {pubs : List JsString} {key : JsString} (hnodup : pubs.Nodup)
    (hkey : key ∉ pubs) (pub : JsString) :
    (pubs.filter codexPubs.has ++ [key]).count pub =
      if pub = key ∨ pub ∈ pubs ∧ codexPubs.has pub = true then 1 else 0 := by
  have hall : (pubs.filter codexPubs.has ++ [key]).Nodup := by
    rw [List.nodup_append]
    refine ⟨hnodup.filter _, by simp, ?_⟩
    rintro a ha b hb rfl
    rw [List.mem_singleton.1 hb] at ha
    exact hkey (List.mem_filter.1 ha).1
  rw [hall.count]
  congr 1
  simp [or_comm]

/-- When `execute` calls the build closure, its context and the keys the resolver has been asked
for are as a caller expects if and only if no guard takes a key that `resolvedForeignKeys` merely
inherits. -/
theorem sound_selection_iff
    (hlist : Async.runIn S.resolver.listCodexPubs w = (.ok codexPubs, w'))
    (hfaithful : S.resolver.Faithful) (hpayment : args.paymentKey ≠ some []) {ctx : BuildContext}
    (hctx : .building ctx ∈ (S.runExecute args w).2.events) :
    SoundSelection args codexPubs (S.requestedKeys args w) ctx ↔
      ∀ guard ∈ args.guards, ∀ pub ∈ takenKeys S.environment.arithmetic codexPubs
        args.resolvedForeignKeys guard,
        ¬ OnlyInherited codexPubs args.resolvedForeignKeys pub := by
  rcases Strategy.selected_of_building hlist hctx with ⟨sel, t, hrun, hsel, gasMeta, gasLimit, rfl⟩
  rcases Strategy.requestedKeys_of_selected hlist hrun with ⟨requestedKey, hkey', hrequested⟩
  rcases hsel.caps with ⟨key, hkey, hcaps⟩
  have hpubs : sel.collected.guardKeypairs.map KadenaKeypair.publicKey =
      (S.selected args codexPubs).elements := by
    rw [hsel.guards hfaithful, hsel.pubs]
  obtain rfl : requestedKey = key := by
    rw [hsel.pubs, hkey] at hkey'
    exact (Option.some.inj hkey').symm
  have hfree := selectCapsSigningKey_key hkey
  have hnot : requestedKey ∉ (S.selected args codexPubs).elements := fun h => by
    rw [(StringSet.has_iff _ _).2 h] at hfree
    exact absurd hfree.2 (by simp)
  rw [← selected_usable_iff]
  constructor
  · intro h
    rw [← hpubs]
    exact h.entries
  · intro h
    refine ⟨?_, ?_, ?_, ?_, ?_, ?_⟩ <;>
      simp only [Strategy.buildContext, hcaps hfaithful, hpubs]
    · exact hfree.1
    · exact hnot
    · intro payment hsome hcodex hout
      have hchosen := selectCapsSigningKey_payment hsome (fun hnil => hpayment (hnil ▸ hsome))
        hcodex (eq_false_of_ne_true fun hused => hout ((StringSet.has_iff _ _).1 hused))
      rw [hkey] at hchosen
      exact Option.some.inj hchosen
    · exact (S.selected args codexPubs).nodup
    · exact h
    · rw [hrequested, hsel.pubs]
      exact count_requested (S.selected args codexPubs).nodup hnot

end Exact

/-! ## A guard key that every object inherits -/

def Event.context? : Event → Option BuildContext
  | .building ctx => some ctx
  | _ => none

theorem building_mem {l : List Event} {ctx : BuildContext}
    (h : l.findSome? Event.context? = some ctx) : .building ctx ∈ l := by
  rcases List.exists_of_findSome?_eq_some h with ⟨e, he, hctx⟩
  cases e with
  | building c =>
      cases hctx
      exact he
  | _ => cases hctx

/-- The first context that the closure is called with. -/
def serverContext (guardPubs : List JsString) : BuildContext :=
  Strategy.buildContext { publicKey := spareKey, privateKey := [] }
    (guardPubs.map fun pub => { publicKey := pub, privateKey := [] })
    (Gas.stoaGasMeta 1772000000000) 500000

theorem sound_selection_iff_bothOfTwo :
    SoundSelection bothOfTwo smallCodex (serverStrategy.requestedKeys bothOfTwo ())
        (serverContext [codexKey, foreignKey]) ↔
      ∀ guard ∈ bothOfTwo.guards, ∀ pub ∈ takenKeys serverStrategy.environment.arithmetic
        smallCodex bothOfTwo.resolvedForeignKeys guard,
        ¬ OnlyInherited smallCodex bothOfTwo.resolvedForeignKeys pub :=
  sound_selection_iff rfl serverResolver_faithful (by decide) (building_mem (by decide +kernel))

/-- The same resolver, and it can ask the user for a key. -/
def askingStrategy : Strategy Unit :=
  { serverStrategy with
    resolver := { serverResolver with requestForeignKey := some fun _ => pure (js "5b") } }

/-- Nothing is resolved beforehand, and the guard's key is called like an inherited member. -/
def inheritedGuard : ExecuteArgs Unit where
  build := fun _ => pure { cmd := js "\x7b\x7d", hash := [], sigs := [] }
  guards := [{ pred := js "keys-all", keys := [js "constructor"] }]
  paymentKey := some spareKey

/-- The closure is called with a guard key that is neither in the codex nor resolved. -/
theorem inherited_key_selected :
    Async.runIn askingStrategy.resolver.listCodexPubs () = (.ok smallCodex, ()) ∧
      askingStrategy.resolver.Faithful ∧ inheritedGuard.paymentKey = some spareKey ∧
      .building (serverContext [js "constructor"]) ∈
        (askingStrategy.runExecute inheritedGuard ()).2.events ∧
      ¬ SoundSelection inheritedGuard smallCodex (askingStrategy.requestedKeys inheritedGuard ())
        (serverContext [js "constructor"]) := by
  refine ⟨rfl, serverResolver_faithful, rfl, building_mem (by decide +kernel), ?_⟩
  intro h
  have husable := (h.entries (js "constructor") (by decide)).2
  exact absurd husable (by decide)

end Signing
end StoaCore
