import StoaCore.Client.BuilderData
import StoaCore.Client.BuilderRefinement
import StoaCore.Library.Fallible
import StoaCore.Signing.MultiParty

/-!
# BuilderRuns — whole lives of a builder

Whatever has happened to a builder, `getCommand` carries out the recipe of the calls so far.  A
builder that starts without signers shares nothing with the commands it has handed out; one that
starts with signers writes into them, and every `getCommand` does so again.
-/

namespace StoaCore
namespace Client

open Library Library.Js Signing
open Library.Fallible (exists_ok exists_error)

/-- The calls among the events of a trace, in order. -/
def callsOf {ω : Type} (trace : List (Transition.Record BuilderState Event ω)) : List Call :=
  trace.filterMap fun r =>
    match r.event with
    | .call c => some c
    | .getCommand => none

/-- All signer objects of the draft exist. -/
def Exist (heap : List Signer) (cmd : Draft) : Prop :=
  ∀ p ∈ places cmd, p < heap.length

theorem Exist.readsAs {heap : List Signer} {cmd : Draft} (h : Exist heap cmd) :
    ∃ v, ReadsAs heap cmd v := by
  have hreads : ∀ ps : List Nat, (∀ p ∈ ps, p < heap.length) →
      ∃ rows, KeyedTable.Reads heap ps rows := by
    intro ps
    induction ps with
    | nil => exact fun _ => ⟨[], .nil⟩
    | cons p ps ih =>
        intro hlt
        rcases ih fun q hq => hlt q (List.mem_cons_of_mem _ hq) with ⟨rows, hrows⟩
        exact ⟨_, .cons (List.getElem?_eq_getElem (hlt p List.mem_cons_self)) hrows⟩
  cases hsigners : cmd.signers with
  | none =>
      refine ⟨cmd.withSigners none, rfl, ?_⟩
      rw [hsigners]
      exact .none
  | some ps =>
      rcases hreads ps (by simpa [Exist, places, hsigners] using h) with ⟨rows, hrows⟩
      refine ⟨cmd.withSigners (some rows), rfl, ?_⟩
      rw [hsigners]
      exact .some hrows

theorem Exist.grow {w w' : World} {changed : List Nat} {cmd : Draft} (h : Exist w.heap cmd)
    (hframe : Frame changed w w') : Exist w'.heap cmd :=
  fun p hp => lt_of_lt_of_le (h p hp) hframe.grows

/-- A new builder has run through no event. -/
theorem readsAs_empty (heap : List Signer) : ReadsAs heap {} {} :=
  ⟨rfl, .none⟩

section Reducers

variable (clock : Nat → Nat)

/-- The reducer, run on an empty command, carries out the recipe, if the initial command is as `P`
says. -/
def Builds (init : Draft) (P : PactCommand Signer → Prop) (start : List Nat) (reducer : Reducer)
    (calls : List Call) : Prop :=
  ∀ w v, ReadsAs w.heap init v → P v →
    Yields (places init) start w (Async.runIn (getCommand reducer) w)
      (recipe clock v w.reads calls)

variable {clock} {init : Draft} {P : PactCommand Signer → Prop} {start : List Nat}
  {reducer : Reducer} {calls : List Call}

theorem builds_of_start
    (h : ∀ w v, ReadsAs w.heap init v → P v →
      Yields (places init) start w (Async.runIn (patchCommand {} init) w)
        ((patchValue {} v).map fun v' => (v', w.reads))) :
    Builds clock init P start (statefulCompose clock init) [] := by
  intro w v hv hP
  have hrun : getCommand (statefulCompose clock init) =
      patchCommand {} init >>= finalizeCommand clock := by
    simp only [getCommand, statefulCompose, composePactCommand, List.foldlM_cons, List.foldlM_nil,
      bind_pure]
    rfl
  have hspec : recipe clock v w.reads [] =
      ((patchValue {} v).map fun v' => (v', w.reads)) >>=
        fun stage => .ok (finalized clock stage.1 stage.2) := by
    unfold recipe startStage
    cases patchValue {} v <;> rfl
  rw [hrun, hspec]
  exact (h w v hv hP).bind (implements_finalizeCommand clock)

theorem builds_statefulCompose (hnodup : (places init).Nodup) :
    Builds clock init (fun _ => True) [] (statefulCompose clock init) [] := by
  refine builds_of_start fun w v hv _ => ?_
  exact yields_patchCommand (readsAs_empty w.heap) hv hnodup

/-- One more call. -/
theorem Builds.composeWith (h : Builds clock init P start reducer calls) (c : Call) :
    Builds clock init P start (composeWith clock reducer c.step) (calls ++ [c]) := by
  intro w v hv hP
  have hrun : getCommand (Client.composeWith clock reducer c.step) =
      getCommand reducer >>= fun cmd => Step.apply cmd c.step >>= finalizeCommand clock := by
    simp only [getCommand, Client.composeWith, composePactCommand, List.foldlM_cons,
      List.foldlM_nil, bind_pure, bind_assoc]
    rfl
  have hspec : recipe clock v w.reads (calls ++ [c]) =
      recipe clock v w.reads calls >>= fun stage =>
        ((callValue stage.1 c).map fun v' => (v', stage.2)) >>=
          fun stage => .ok (finalized clock stage.1 stage.2) := by
    rw [recipe_concat]
    congr 1
    funext stage
    unfold nextStage
    cases callValue stage.1 c <;> rfl
  rw [hrun, hspec]
  exact (h w v hv hP).bind ((implements_call c).comp (implements_finalizeCommand clock))

/-! ## Runs -/

/-- The step of a call. -/
def called (clock : Nat → Nat) (s : BuilderState) (c : Call) :
    Transition.Record BuilderState Event (Option (Except Thrown Draft)) where
  pre := s
  event := .call c
  out := none
  post := { s with reducer := composeWith clock s.reducer c.step }

/-- The step of a `getCommand`. -/
def asked (s : BuilderState) :
    Transition.Record BuilderState Event (Option (Except Thrown Draft)) where
  pre := s
  event := .getCommand
  out := some (Async.runIn (getCommand s.reducer) s.world).1
  post := { s with world := (Async.runIn (getCommand s.reducer) s.world).2 }

theorem called_valid (s : BuilderState) (c : Call) (heap : List Signer) :
    (called clock s c).Valid (builder clock init heap) :=
  rfl

theorem asked_valid (s : BuilderState) (heap : List Signer) :
    (asked s).Valid (builder clock init heap) :=
  rfl

/-- What an event can do. -/
theorem step_cases {heap : List Signer}
    {r : Transition.Record BuilderState Event (Option (Except Thrown Draft))}
    (h : r.Valid (builder clock init heap)) :
    (∃ c, r.event = .call c ∧ r.post.reducer = composeWith clock r.pre.reducer c.step ∧
      r.post.world = r.pre.world) ∨
    (r.event = .getCommand ∧ r.post.reducer = r.pre.reducer ∧
      r.out = some (Async.runIn (getCommand r.pre.reducer) r.pre.world).1 ∧
      r.post.world = (Async.runIn (getCommand r.pre.reducer) r.pre.world).2) := by
  rcases r with ⟨pre, event, out, post⟩
  cases event with
  | call c =>
      have heq := Option.some.inj h
      simp only [Prod.mk.injEq] at heq
      exact Or.inl ⟨c, rfl, heq.1 ▸ rfl, heq.1 ▸ rfl⟩
  | getCommand =>
      have heq := Option.some.inj h
      simp only [Prod.mk.injEq] at heq
      exact Or.inr ⟨rfl, heq.1 ▸ rfl, heq.2.symm, heq.1 ▸ rfl⟩

variable {heap : List Signer} {s t : BuilderState}
  {trace : List (Transition.Record BuilderState Event (Option (Except Thrown Draft)))}

theorem run_builds (h : Transition.Run (builder clock init heap) s trace t)
    (hs : Builds clock init P start s.reducer calls) :
    Builds clock init P start t.reducer (calls ++ callsOf trace) := by
  induction h generalizing calls with
  | nil s => simpa [callsOf] using hs
  | @cons r trace t hvalid _ ih =>
      rcases step_cases hvalid with ⟨c, hevent, hreducer, -⟩ | ⟨hevent, hreducer, -, -⟩
      · have hrest := ih (hreducer ▸ hs.composeWith c)
        simpa [callsOf, hevent] using hrest
      · have hrest := ih (hreducer ▸ hs)
        simpa [callsOf, hevent] using hrest

/-- Nothing but the signers that the builder starts with is ever changed. -/
theorem run_frame (h : Transition.Run (builder clock init heap) s trace t)
    (hs : Builds clock init (fun _ => True) start s.reducer calls)
    (hexist : Exist s.world.heap init) :
    Frame (places init) s.world t.world ∧ Exist t.world.heap init := by
  induction h generalizing calls with
  | nil s => exact ⟨Frame.refl _ _, hexist⟩
  | @cons r trace t hvalid _ ih =>
      rcases step_cases hvalid with ⟨c, -, hreducer, hworld⟩ | ⟨-, hreducer, -, hworld⟩
      · rw [← hworld] at hexist ⊢
        exact ih (hreducer ▸ hs.composeWith c) hexist
      · rcases hexist.readsAs with ⟨v, hv⟩
        have hframe := (hs r.pre.world v hv trivial).frame
        rw [← hworld] at hframe
        rcases ih (hreducer ▸ hs) (hexist.grow hframe) with ⟨hrest, hexist'⟩
        exact ⟨hframe.trans hrest fun p hp => Or.inl hp, hexist'⟩

/-- A `getCommand` anywhere in a run: the signers that the builder starts with are read as they are
at that moment, and the answer is the recipe of the calls so far. -/
theorem run_getCommand (hnodup : (places init).Nodup) (hexist : Exist heap init)
    (h : Transition.Run (builder clock init heap) (builder clock init heap).init trace t)
    {front back : List (Transition.Record BuilderState Event (Option (Except Thrown Draft)))}
    {r : Transition.Record BuilderState Event (Option (Except Thrown Draft))}
    (htrace : trace = front ++ r :: back) (hevent : r.event = .getCommand) :
    ∃ v result, ReadsAs r.pre.world.heap init v ∧ r.out = some result ∧
      Yields (places init) [] r.pre.world (result, r.post.world)
        (recipe clock v r.pre.world.reads (callsOf front)) := by
  have hfront := h.before htrace
  have hvalid : r.Valid (builder clock init heap) := h.valid_of_mem r (by simp [htrace])
  have hbuilds := run_builds hfront (builds_statefulCompose hnodup)
  have hexist' := (run_frame hfront (builds_statefulCompose hnodup) hexist).2
  rcases hexist'.readsAs with ⟨v, hv⟩
  rcases step_cases hvalid with ⟨c, hcall, -, -⟩ | ⟨-, -, hout, hworld⟩
  · rw [hevent] at hcall
    cases hcall
  · refine ⟨v, _, hv, hout, ?_⟩
    rw [hworld]
    exact hbuilds r.pre.world v hv trivial

/-- A builder that starts without signers: the answer of a `getCommand` is the recipe of the calls
so far, however often the builder has been asked before, and at the end of the run the command still
reads as it did. -/
theorem run_getCommand_fresh (hinit : init.signers = none)
    (h : Transition.Run (builder clock init heap) (builder clock init heap).init trace t)
    {front back : List (Transition.Record BuilderState Event (Option (Except Thrown Draft)))}
    {r : Transition.Record BuilderState Event (Option (Except Thrown Draft))}
    (htrace : trace = front ++ r :: back) (hevent : r.event = .getCommand) :
    (∀ e, recipe clock (init.withSigners none) r.pre.world.reads (callsOf front) = .error e →
      r.out = some (.error e)) ∧
    ∀ cmd reads,
      recipe clock (init.withSigners none) r.pre.world.reads (callsOf front) = .ok (cmd, reads) →
      ∃ draft, r.out = some (.ok draft) ∧ view t.world.heap draft = cmd ∧
        ∀ p ∈ places draft, r.pre.world.heap.length ≤ p := by
  have hplaces : places init = [] := by rw [places, hinit]; rfl
  have hnodup : (places init).Nodup := hplaces ▸ List.nodup_nil
  have hexist : ∀ heap, Exist heap init := fun heap p hp => by
    rw [hplaces] at hp
    cases hp
  rcases run_getCommand hnodup (hexist heap) h htrace hevent with ⟨v, result, hv, hout, hyields⟩
  have hinit' : v = init.withSigners none := by
    have hnone : v.signers = none := by
      have hsome := hv.isNone
      rw [hinit] at hsome
      simpa using hsome.symm
    rw [hv.rest, hnone]
  subst hinit'
  refine ⟨fun e he => ?_, fun cmd reads hcmd => ?_⟩
  · have hresult : result = .error e := hyields.error e he
    rw [hout, hresult]
  · rcases hyields.ok cmd reads hcmd with ⟨draft, hresult, -, hstands, -, -, hfresh⟩
    have hresult' : result = .ok draft := hresult
    subst hresult'
    refine ⟨draft, hout, ?_, fun p hp => ?_⟩
    · -- What is left of the run changes no object at all.
      subst htrace
      rcases h.split with ⟨middle, hfront, hrest⟩
      have hbuilds := run_builds hfront (builds_statefulCompose hnodup)
      cases hrest with
      | cons hvalid hback =>
          have hpost : Builds clock init (fun _ => True) [] r.post.reducer (callsOf front) := by
            rcases step_cases hvalid with ⟨c, hcall, -, -⟩ | ⟨-, hreducer, -, -⟩
            · rw [hevent] at hcall
              cases hcall
            · exact hreducer ▸ hbuilds
          have hframe := (run_frame hback hpost (hexist _)).1
          refine (hstands.congr fun p hp => hframe.same p (hstands.lt hp) ?_).view_eq
          rw [hplaces]
          exact List.not_mem_nil
    · rcases hfresh p hp with hp | hle
      · rw [hplaces] at hp
        cases hp
      · exact hle

end Reducers

/-! ## Builders that start with a payload -/

/-- The builder that `execution` and `continuation` return when there is no initial command. -/
def startDraft (start : Start) : Draft :=
  { payload := some start.payload }

theorem wellFormed_start (start : Start) : WellFormed start.payload := by
  cases start with
  | execution codes => trivial
  | continuation options =>
      have hnodup := nodup_spreadAll [(js "data", .obj [])]
        (spreadAll [[(js "proof", .null)], options])
      simp only [Start.payload, continuation]
      split
      · exact Record.nodup_assign hnodup
      · exact hnodup

/-! ## A transfer

`Pact.builder.execution("(transfer)")` with a signer named twice, data, a keyset, a verifier, meta
data in two calls and a nonce that is made from the command; it is asked in between and again. -/

def transferClock (n : Nat) : Nat :=
  1000 * n

/-- An object that has nothing to do with the builder. -/
def otherSigner : Signer where
  pubKey := js "other"
  scheme := none
  address := none
  clist := none

def transferBuilder : Transition.System BuilderState Event (Option (Except Thrown Draft)) :=
  builder transferClock (startDraft (.execution [js "(transfer)"])) [otherSigner]

def transferCall : Call :=
  .addSigner [.key publicKeyA] (some [⟨js "coin.GAS", []⟩])

def amountEntry : Call :=
  .addData (js "amount") (.str (js "1.0"))

/-- `setNonce((cmd) => cmd.networkId + "-transfer")` -/
def transferNonce : NonceArg :=
  .generator fun cmd => cmd.networkId.getD [] ++ js "-transfer"

def firstMeta : Members :=
  [(js "chainId", .str (js "0")), (js "senderAccount", .str (js "k:a"))]

def laterCalls : List Call :=
  [.addVerifier (js "zk") .null (some []),
    .addSigner [.key publicKeyB, .key publicKeyA] (some [⟨js "coin.TRANSFER", []⟩]),
    .setMeta [(js "chainId", .str (js "1"))],
    .setNetworkId (js "stoa"),
    .addKeyset (js "guard") (js "keys-all") [publicKeyB]]

def transferCalls : List Call :=
  [transferCall, amountEntry] ++ .setMeta firstMeta :: laterCalls

def transferEvents : List Event :=
  [.call transferCall, .call amountEntry, .getCommand] ++
    (Call.setMeta firstMeta :: laterCalls ++ [Call.setNonce transferNonce]).map Event.call

def transferFront : List (Transition.Record BuilderState Event (Option (Except Thrown Draft))) :=
  transferBuilder.trace transferBuilder.init transferEvents

def transferReady : BuilderState :=
  transferBuilder.final transferBuilder.init transferEvents

def transferAsked : Transition.Record BuilderState Event (Option (Except Thrown Draft)) :=
  asked transferReady

/-- The same entry once more, which every later `getCommand` refuses. -/
def transferTwice : Transition.Record BuilderState Event (Option (Except Thrown Draft)) :=
  called transferClock transferAsked.post amountEntry

def transferRefused : Transition.Record BuilderState Event (Option (Except Thrown Draft)) :=
  asked transferTwice.post

def transferAgain : Transition.Record BuilderState Event (Option (Except Thrown Draft)) :=
  asked transferRefused.post

theorem transfer_run : Transition.Run transferBuilder transferBuilder.init
    (transferFront ++ [transferAsked, transferTwice, transferRefused, transferAgain])
    transferAgain.post := by
  have hfront : Transition.Run transferBuilder transferBuilder.init transferFront transferReady :=
    Transition.run_of_events transferEvents (by decide +kernel)
  exact hfront.append (.cons (asked_valid _ _) (.cons (called_valid _ _ _)
    (.cons (asked_valid _ _) (.cons (asked_valid _ _) (.nil _)))))

theorem callsOf_transferFront :
    callsOf transferFront = transferCalls ++ [.setNonce transferNonce] :=
  rfl

/-- What the builder answers. -/
def transferDraft : Draft :=
  (transferAsked.out.bind Except.toOption).getD {}

theorem out_transferAsked : transferAsked.out = some (.ok transferDraft) := by
  have hok : (Async.runIn (getCommand transferReady.reducer) transferReady.world).1.toBool =
      true := by
    decide +kernel
  rcases exists_ok hok with ⟨draft, hdraft⟩
  have hout : transferAsked.out = some (.ok draft) := congrArg some hdraft
  rw [transferDraft, hout]
  rfl

/-! ## What a builder answers -/

section Started

variable {clock : Nat → Nat} {start : Start} {heap : List Signer} {t : BuilderState}
  {trace : List (Transition.Record BuilderState Event (Option (Except Thrown Draft)))}

/-- In every life of a builder made without an initial command, each `getCommand` answers with the
recipe of the calls made before it, whatever was asked in between; the answer still reads the same
when the run has gone on, and no signer object that was there at first is ever changed. -/
theorem getCommand_follows_calls
    (h : Transition.Run (builder clock (startDraft start) heap)
      (builder clock (startDraft start) heap).init trace t) :
    (∀ front r back, trace = front ++ r :: back → r.event = .getCommand →
      (∀ e, recipe clock (payloadOnly start.payload) r.pre.world.reads (callsOf front) = .error e →
        r.out = some (.error e)) ∧
      ∀ cmd reads,
        recipe clock (payloadOnly start.payload) r.pre.world.reads (callsOf front) =
          .ok (cmd, reads) →
        ∃ draft, r.out = some (.ok draft) ∧ view t.world.heap draft = cmd ∧
          ∀ p ∈ places draft, r.pre.world.heap.length ≤ p) ∧
    ∀ p < heap.length, t.world.heap[p]? = heap[p]? := by
  refine ⟨fun front r back htrace hevent => run_getCommand_fresh rfl h htrace hevent, ?_⟩
  have hexist : Exist heap (startDraft start) := fun p hp => by cases hp
  have hframe := (run_frame h (builds_statefulCompose List.nodup_nil) hexist).1
  exact fun p hp => hframe.same p hp List.not_mem_nil

theorem getCommand_follows_calls_transfer :
    (∃ reads,
      recipe transferClock (payloadOnly (execution [js "(transfer)"])) transferReady.world.reads
        (transferCalls ++ [.setNonce transferNonce]) =
          .ok (view transferAgain.post.world.heap transferDraft, reads)) ∧
    (∃ e, transferRefused.out = some (.error e)) ∧
    transferAgain.post.world.heap[0]? = some otherSigner := by
  have hruns := getCommand_follows_calls transfer_run
  have hasked := (hruns.1 transferFront transferAsked _ rfl rfl).2
  have hrefused := (hruns.1 (transferFront ++ [transferAsked, transferTwice]) transferRefused
    [transferAgain] (by simp) rfl).1
  rw [callsOf_transferFront] at hasked
  have hready : (recipe transferClock (payloadOnly (execution [js "(transfer)"]))
      transferReady.world.reads (transferCalls ++ [.setNonce transferNonce])).toBool = true := by
    decide +kernel
  have htwice : (recipe transferClock (payloadOnly (execution [js "(transfer)"]))
      transferRefused.pre.world.reads
      (callsOf (transferFront ++ [transferAsked, transferTwice]))).toBool = false := by
    decide +kernel
  rcases exists_ok hready with ⟨⟨cmd, reads⟩, hrecipe⟩
  rcases exists_error htwice with ⟨e, hfails⟩
  rcases hasked cmd reads hrecipe with ⟨draft, hout, hview, -⟩
  rw [out_transferAsked] at hout
  obtain rfl : transferDraft = draft := Except.ok.inj (Option.some.inj hout)
  exact ⟨⟨reads, hview ▸ hrecipe⟩, ⟨e, hrefused e hfails⟩, hruns.2 0 (by decide)⟩

/-- What the command that a `getCommand` has handed out contains, at the end of a run of a builder
made without an initial command: every key once, in the order of the first `addSigner` that names
it, with the capabilities of all of them; the verifiers; the last network and the last nonce; and
the meta data, with the defaults of the first `setMeta` under what all of them give. -/
theorem getCommand_contents
    (h : Transition.Run (builder clock (startDraft start) heap)
      (builder clock (startDraft start) heap).init trace t)
    (front back : List (Transition.Record BuilderState Event (Option (Except Thrown Draft))))
    (r : Transition.Record BuilderState Event (Option (Except Thrown Draft)))
    (htrace : trace = front ++ r :: back) (hevent : r.event = .getCommand) {draft : Draft}
    (hout : r.out = some (.ok draft)) :
    Contents clock (payloadOnly start.payload) r.pre.world.reads (callsOf front)
      (view t.world.heap draft) := by
  rcases run_getCommand_fresh rfl h htrace hevent with ⟨herror, hok⟩
  cases hrecipe : recipe clock (payloadOnly start.payload) r.pre.world.reads (callsOf front) with
  | error e =>
      rw [herror e hrecipe] at hout
      cases hout
  | ok stage =>
      rcases hok stage.1 stage.2 hrecipe with ⟨draft', hout', hview, -⟩
      rw [hout'] at hout
      cases hout
      rw [hview]
      exact contents_recipe hrecipe

theorem getCommand_contents_transfer :
    let cmd := view transferAgain.post.world.heap transferDraft
    (cmd.signers.getD []).map (fun signer => (signer.pubKey, signer.caps.map Cap.name)) =
        [(publicKeyA, [js "coin.GAS", js "coin.TRANSFER"]), (publicKeyB, [js "coin.TRANSFER"])] ∧
      (cmd.verifiers.getD []).map Verifier.name = [js "zk"] ∧
      cmd.networkId = some (js "stoa") ∧ cmd.nonce = some (js "stoa-transfer") ∧
      ∃ members, cmd.metaData = some members ∧
        members.lookup (js "chainId") = some (.str (js "1")) ∧
        members.lookup (js "sender") = some (.str (js "k:a")) := by
  have hcontents := getCommand_contents transfer_run transferFront _ transferAsked rfl rfl
    out_transferAsked
  rw [callsOf_transferFront] at hcontents
  refine ⟨?_, ?_, hcontents.networkId, ?_, ?_⟩
  · rw [hcontents.signers]
    decide +kernel
  · rw [hcontents.verifiers]
    decide +kernel
  · rcases hcontents.nonce transferCalls transferNonce [] rfl (by simp) with
      ⟨before, m, hbefore, hnonce⟩
    have hnetwork : before.networkId = some (js "stoa") := (contents_recipe hbefore).networkId
    have hvalue : transferNonce.value before = before.networkId.getD [] ++ js "-transfer" := rfl
    rw [hnonce, hvalue, hnetwork]
    decide
  · have hfront : ∀ c ∈ [transferCall, amountEntry], c.isSetMeta = false := by
      simp [transferCall, amountEntry, Call.isSetMeta]
    rcases hcontents.metaData [transferCall, amountEntry] firstMeta
      (laterCalls ++ [.setNonce transferNonce]) (by simp [transferCalls]) hfront with
      ⟨members, hmembers, -, hlookup⟩
    exact ⟨members, hmembers, hlookup _, hlookup _⟩

/-- A `getCommand` of a builder made without an initial command succeeds exactly when the names
given to `addData` and `addKeyset` before it are distinct, not in the data of a continuation, and
inherited by no object.  Then the code or the step is unchanged and the data holds every entry;
otherwise the error names the first name that is not accepted, and every later `getCommand` throws
it again. -/
theorem getCommand_data {data₀ : Members} (hdata : DataOf start.payload data₀)
    (hnodup : (data₀.map Prod.fst).Nodup) (hdata₀ : AllDefined data₀)
    (h : Transition.Run (builder clock (startDraft start) heap)
      (builder clock (startDraft start) heap).init trace t)
    (front back : List (Transition.Record BuilderState Event (Option (Except Thrown Draft))))
    (r : Transition.Record BuilderState Event (Option (Except Thrown Draft)))
    (htrace : trace = front ++ r :: back) (hevent : r.event = .getCommand)
    (hcalls : AllDefined ((callsOf front).flatMap Call.entries)) :
    (Acceptable data₀ (entryNames (callsOf front)) ∧
      ∃ draft, r.out = some (.ok draft) ∧
        Grown start.payload data₀ ((callsOf front).flatMap Call.entries)
          (view t.world.heap draft)) ∨
    ∃ calls c rest key value, callsOf front = calls ++ c :: rest ∧ c.entries = [(key, value)] ∧
      Acceptable data₀ (entryNames calls) ∧ ¬ Acceptable data₀ (entryNames calls ++ [key]) ∧
      r.out = some (.error (duplicatedKey key)) ∧
      ∀ r' ∈ back, r'.event = .getCommand → r'.out = some (.error (duplicatedKey key)) := by
  rcases run_getCommand_fresh rfl h htrace hevent with ⟨herror, hok⟩
  have hinit : (payloadOnly start.payload).payload = some start.payload := rfl
  rcases recipe_outcome hinit (wellFormed_start start) hdata hnodup hdata₀ hcalls with
    ⟨hgrown, hfirst⟩
  cases hrecipe : recipe clock (payloadOnly start.payload) r.pre.world.reads (callsOf front) with
  | error e =>
      rcases hfirst e hrecipe with ⟨calls, c, rest, key, value, hsplit, hentry, hgood, hbad, rfl⟩
      refine Or.inr ⟨calls, c, rest, key, value, hsplit, hentry, hgood, hbad, herror _ hrecipe, ?_⟩
      -- A later `getCommand` has the same calls and more, and such a recipe goes on failing.
      intro r' hr' hevent'
      rcases List.append_of_mem hr' with ⟨middle, last, rfl⟩
      have htrace' : trace = (front ++ r :: middle) ++ r' :: last := by simp [htrace]
      have hcallsOf : callsOf (front ++ r :: middle) = callsOf front ++ callsOf middle := by
        simp [callsOf, hevent]
      refine (run_getCommand_fresh rfl h htrace' hevent').1 _ ?_
      rw [hcallsOf]
      exact recipe_refused hinit (wellFormed_start start) hdata hnodup hdata₀ hcalls hrecipe _ _
  | ok stage =>
      rcases hok stage.1 stage.2 hrecipe with ⟨draft, hout, hview, -⟩
      rcases hgrown stage.1 stage.2 hrecipe with ⟨haccept, hgrows⟩
      exact Or.inl ⟨haccept, draft, hout, hview ▸ hgrows⟩

end Started

theorem getCommand_data_transfer :
    Grown (execution [js "(transfer)"]) []
      [(js "amount", .str (js "1.0")), (js "guard", keysetValue (js "keys-all") [publicKeyB])]
      (view transferAgain.post.world.heap transferDraft) ∧
    transferRefused.out = some (.error (duplicatedKey (js "amount"))) ∧
    transferAgain.out = some (.error (duplicatedKey (js "amount"))) := by
  have hdata : DataOf (Start.execution [js "(transfer)"]).payload [] := .exec _ _
  have hempty : AllDefined [] := fun m hm => by cases hm
  have hentries : (transferCalls ++ [Call.setNonce transferNonce]).flatMap Call.entries =
      [(js "amount", .str (js "1.0")), (js "guard", keysetValue (js "keys-all") [publicKeyB])] :=
    rfl
  have hcalls : callsOf (transferFront ++ [transferAsked, transferTwice]) =
      (transferCalls ++ [Call.setNonce transferNonce]) ++ [amountEntry] :=
    rfl
  constructor
  · have hasked := getCommand_data hdata List.nodup_nil hempty transfer_run transferFront _
      transferAsked rfl rfl (by
        rw [callsOf_transferFront, hentries]
        simp [AllDefined, keysetValue, Value.isUndefined])
    rw [callsOf_transferFront, hentries, out_transferAsked] at hasked
    rcases hasked with ⟨-, draft, hout, hgrown⟩ | ⟨_, _, _, _, _, _, _, _, _, hrefused, -⟩
    · rw [Except.ok.inj (Option.some.inj hout)]
      exact hgrown
    · cases hrefused
  · have hnames : entryNames (transferCalls ++ [Call.setNonce transferNonce]) =
        [js "amount", js "guard"] := rfl
    have hgood : Acceptable [] [js "amount", js "guard"] := ⟨by decide, by decide⟩
    have hbad : ¬ Acceptable [] [js "amount", js "guard", js "amount"] := fun h =>
      absurd h.1 (by decide)
    have hrefused := getCommand_data hdata List.nodup_nil hempty transfer_run
      (transferFront ++ [transferAsked, transferTwice]) [transferAgain] transferRefused (by simp)
      rfl (by
        rw [hcalls, List.flatMap_append, hentries]
        simp [AllDefined, keysetValue, Value.isUndefined, amountEntry, Call.entries])
    rw [hcalls] at hrefused
    rcases hrefused with ⟨haccept, -⟩ |
      ⟨calls, c, rest, key, value, hsplit, hentry, hgood', hbad', hout, hlater⟩
    · exact absurd haccept hbad
    -- The calls determine which name is refused first: the one that is given twice.
    · have hkey : js "amount" = key :=
        first_refused_unique hsplit rfl hentry (hnames ▸ hgood) hbad hgood' hbad'
      exact ⟨hkey ▸ hout, hkey ▸ hlater transferAgain List.mem_cons_self rfl⟩

end Client
end StoaCore
