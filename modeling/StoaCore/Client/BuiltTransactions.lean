import StoaCore.Client.BuilderRuns
import StoaCore.Signing.MultiParty

/-!
# BuiltTransactions — from a builder to a signed transaction

`createTransaction` of the builder prints the finished command, hashes the text and leaves one empty
slot for each signer.  The signers that the text declares are the keys of the `addSigner` calls,
each once, so the transaction is what the signing of several parties asks for.
-/

namespace StoaCore
namespace Client

open Library Library.Js Library.WriteOnce Signing
open Library.Fallible (exists_ok)

/-! ## Commands as values -/

def SignerScheme.text : SignerScheme → JsString
  | .ED25519 => js "ED25519"
  | .ETH => js "ETH"
  | .WebAuthn => js "WebAuthn"

def capValue (cap : Cap) : Value :=
  .obj [(js "name", .str cap.name), (js "args", .arr cap.args)]

/-- A member that is there only if it has a value. -/
def optionalMember (name : JsString) (v : Option Value) : Members :=
  match v with
  | none => []
  | some v => [(name, v)]

def clistMember (clist : Option (List Cap)) : Members :=
  optionalMember (js "clist") (clist.map fun caps => .arr (caps.map capValue))

def signerValue (signer : Signer) : Value :=
  .obj ((js "pubKey", .str signer.pubKey) ::
    (optionalMember (js "scheme") (signer.scheme.map fun scheme => .str scheme.text) ++
      optionalMember (js "address") (signer.address.map Value.str) ++ clistMember signer.clist))

def verifierValue (verifier : Verifier) : Value :=
  .obj ((js "name", .str verifier.name) :: (js "proof", verifier.proof) ::
    clistMember verifier.clist)

def payloadValue : Payload → Value
  | .exec code data =>
      .obj [(js "exec", .obj (optionalMember (js "code") (code.map Value.str) ++
        optionalMember (js "data") (data.map Value.obj)))]
  | .cont fields => .obj [(js "cont", .obj fields)]

namespace PactCommand

/-- `command[name]` -/
def member (command : PactCommand Signer) (name : JsString) : Value :=
  if name = js "payload" then (command.payload.map payloadValue).getD .undefined
  else if name = js "meta" then (command.metaData.map Value.obj).getD .undefined
  else if name = js "nonce" then (command.nonce.map Value.str).getD .undefined
  else if name = js "networkId" then (command.networkId.map Value.str).getD .undefined
  else if name = js "signers" then
    (command.signers.map fun signers => .arr (signers.map signerValue)).getD .undefined
  else if name = js "verifiers" then
    (command.verifiers.map fun verifiers => .arr (verifiers.map verifierValue)).getD .undefined
  else .undefined

/-- The command object, as `JSON.stringify` walks over it. -/
def toValue (command : PactCommand Signer) : Value :=
  .obj (command.names.elements.map fun name => (name, command.member name))

end PactCommand

/-- `createTransaction(builder.getCommand())`, for the command that `getCommand` has returned. -/
def createTransaction (B : Backend) (heap : List Signer) (draft : Draft) : Command :=
  Signing.createTransaction B (view heap draft).toValue

theorem hash_createTransaction (B : Backend) (heap : List Signer) (draft : Draft) :
    (createTransaction B heap draft).hash = B.hash (createTransaction B heap draft).cmd := rfl

/-! ## What the text declares -/

theorem lookup_map_member (names : List JsString) (f : JsString → Value) (name : JsString) :
    (names.map fun n => (n, f n)).lookup name = if name ∈ names then some (f name) else none := by
  induction names with
  | nil => rfl
  | cons n names ih =>
      rw [List.map_cons, List.lookup_cons]
      by_cases h : name = n
      · simp [h]
      · have hbeq : (name == n) = false := by simpa using h
        simp [hbeq, ih, h]

theorem member_signers (command : PactCommand Signer) :
    command.member (js "signers") =
      (command.signers.map fun signers => .arr (signers.map signerValue)).getD .undefined := by
  have hother : js "signers" ≠ js "payload" ∧ js "signers" ≠ js "meta" ∧
      js "signers" ≠ js "nonce" ∧ js "signers" ≠ js "networkId" := by decide
  simp [PactCommand.member, hother]

theorem nodup_signerValue (signer : Signer) :
    (((js "pubKey", Value.str signer.pubKey) ::
      (optionalMember (js "scheme") (signer.scheme.map fun scheme => .str scheme.text) ++
        optionalMember (js "address") (signer.address.map Value.str) ++
        clistMember signer.clist)).map Prod.fst).Nodup := by
  rcases signer with ⟨pubKey, scheme, address, clist⟩
  cases scheme <;> cases address <;> cases clist <;>
    simp only [Option.map_none, Option.map_some, optionalMember, clistMember, List.nil_append,
      List.append_nil, List.cons_append, List.map_cons, List.map_nil] <;> decide

theorem get_pubKey_signerValue (signer : Signer) :
    (normalizeValue (signerValue signer)).get (js "pubKey") = some (.str signer.pubKey) :=
  get_normalizeValue_obj (nodup_signerValue signer) List.lookup_cons_self rfl

/-- The JSON text of a command declares the keys of its signers. -/
theorem declares_toValue (B : Backend) {command : PactCommand Signer} {signers : List Signer}
    (hsigners : command.signers = some signers) (hname : js "signers" ∈ command.names.elements) :
    Declares (Signing.createTransaction B command.toValue).cmd (signers.map Signer.pubKey) := by
  have htext : stringify command.toValue [] =
      some (Signing.createTransaction B command.toValue).cmd := rfl
  have hparse := parse_stringify (fun c hc => by cases hc) htext
  have hkeys : ((command.names.elements.map fun name => (name, command.member name)).map
      Prod.fst).Nodup := by
    have hid : (Prod.fst ∘ fun name => (name, command.member name)) = id := rfl
    rw [List.map_map, hid, List.map_id]
    exact command.names.nodup
  have hlookup : (command.names.elements.map fun name => (name, command.member name)).lookup
      (js "signers") = some (.arr (signers.map signerValue)) := by
    rw [lookup_map_member, if_pos hname, member_signers, hsigners]
    rfl
  refine ⟨_, (signers.map signerValue).map normalizeValue, hparse, ?_, ?_⟩
  · rw [PactCommand.toValue, get_normalizeValue_obj hkeys hlookup rfl, normalizeValue,
      normalizeItems_eq_map]
  · rw [SignersOf, List.map_map, List.forall₂_map_left_iff, List.forall₂_map_right_iff,
      List.forall₂_same]
    exact fun signer _ => get_pubKey_signerValue signer

/-! ## The member `signers` -/

/-- A command with signers has a member of that name. -/
def Named (command : PactCommand Signer) : Prop :=
  command.signers.isSome = true → js "signers" ∈ command.names.elements

section Names

variable {clock : Nat → Nat} {init cmd patch v : PactCommand Signer} {reads n : Nat}
  {calls : List Call}

/-- The members before the signers only add names. -/
theorem named_patchFields (h : Named cmd) (hv : patchFields cmd patch = .ok v) : Named v := by
  intro hsome
  rw [signers_patchFields hv] at hsome
  have hname := h hsome
  rcases patch with ⟨payload, metaData, nonce, networkId, _, _, _⟩
  rcases bind_ok hv with ⟨first, hfirst, hrest⟩
  have hfirstName : js "signers" ∈ first.names.elements := by
    cases payload with
    | none =>
        cases hfirst
        exact hname
    | some newPayload =>
        simp only [patchPayload] at hfirst
        cases hmerge : mergePayload cmd.payload (some newPayload) with
        | error e =>
            rw [hmerge] at hfirst
            cases hfirst
        | ok payload =>
            rw [hmerge] at hfirst
            cases hfirst
            exact (StringSet.mem_add _ _ _).2 (Or.inl hname)
  cases hrest
  cases metaData <;> cases nonce <;> cases networkId <;>
    simp [patchMeta, patchNonce, patchNetworkId, PactCommand.setMeta, PactCommand.setNonce,
      PactCommand.setNetworkId, hfirstName]

theorem named_foldl_addRow (rows : List Signer) (h : Named cmd) :
    Named (rows.foldl addRow cmd) := by
  induction rows generalizing cmd with
  | nil => exact h
  | cons row rows ih =>
      refine ih fun _ => ?_
      exact (StringSet.mem_add _ _ _).2 (Or.inr rfl)

theorem named_patchValue (h : Named cmd) (hv : patchValue cmd patch = .ok v) : Named v := by
  rcases bind_ok hv with ⟨state, hstate, hrest⟩
  cases hrest
  have hrows := named_foldl_addRow (patch.signers.getD []) (named_patchFields h hstate)
  intro hsome
  rw [signers_patchVerifiers] at hsome
  rcases patch.verifiers with _ | _ | _
  · exact hrows hsome
  · exact hrows hsome
  · exact (StringSet.mem_add _ _ _).2 (Or.inl (hrows hsome))

theorem named_callValue {c : Call} (h : Named cmd) (hv : callValue cmd c = .ok v) : Named v := by
  rcases entries_cases c with ⟨-, hcall⟩ | ⟨key, value, -, hcall⟩
  · rw [(hcall cmd).2] at hv
    exact named_patchValue h hv
  · rw [(hcall cmd).2] at hv
    exact named_patchValue h (addDataValue_ok hv).2

/-- A finalized command always has the member. -/
theorem mem_names_finalized (h : Named cmd) (reads : Nat) :
    js "signers" ∈ (finalized clock cmd reads).1.names.elements := by
  have hdefaults : js "signers" ∈ (withDefaults clock reads cmd).names.elements := by
    unfold withDefaults
    cases hsigners : cmd.signers with
    | none => split <;> simp [PactCommand.setSigners, PactCommand.setNonce, hsigners]
    | some signers =>
        have hname : js "signers" ∈ cmd.names.elements := h (by rw [hsigners]; rfl)
        split <;> simp [PactCommand.setNonce, hsigners, hname]
  cases hmeta : (withDefaults clock reads cmd).metaData with
  | none =>
      simp only [finalized, hmeta]
      exact hdefaults
  | some members =>
      simp only [finalized, hmeta]
      exact (StringSet.mem_add _ _ _).2 (Or.inl hdefaults)

theorem named_recipe (h : recipe clock init reads calls = .ok (cmd, n)) :
    js "signers" ∈ cmd.names.elements := by
  induction calls using List.reverseRecOn generalizing cmd n with
  | nil =>
      rcases start_cases h with ⟨v, hv, rfl, -⟩
      have hempty : Named {} := fun hsome => by cases hsome
      exact mem_names_finalized (named_patchValue hempty hv) reads
  | append_singleton calls c ih =>
      rcases recipe_cases clock h with ⟨before, m, v, hbefore, hv, rfl, -⟩
      have hnamed : Named before := fun _ => ih hbefore
      exact mem_names_finalized (named_callValue hnamed hv) m

end Names

/-! ## From the builder to the last signature -/

/-- The keys that the calls mention, each once, in the order of the first mention. -/
def signerKeys (calls : List Call) : List JsString :=
  ((mentionsOf calls).map Signer.pubKey).eraseDups

theorem keys_signerTable (mentions : List Signer) :
    (signerTable mentions).map Signer.pubKey = (mentions.map Signer.pubKey).eraseDups := by
  rw [← mergeAll_eq_signerTable, KeyedTable.keys_mergeAll pubKey_absorb]

theorem nodup_signerKeys (calls : List Call) : (signerKeys calls).Nodup := by
  rw [signerKeys, ← keys_signerTable, ← mergeAll_eq_signerTable]
  exact KeyedTable.nodup_mergeAll pubKey_absorb List.nodup_nil

/-- What holds of every key holds of every mention. -/
theorem forall_mem_signerKeys {calls : List Call} {P : JsString → Prop} :
    (∀ k ∈ signerKeys calls, P k) ↔ ∀ signer ∈ mentionsOf calls, P signer.pubKey := by
  simp only [signerKeys, List.mem_eraseDups, List.forall_mem_map]

/-- The transaction made from a recipe, as the signing of several parties asks for it. -/
theorem built_recipe (B : Backend) {clock : Nat → Nat} {start : Payload}
    {cmd : PactCommand Signer} {reads n : Nat} {calls : List Call}
    (h : recipe clock (payloadOnly start) reads calls = .ok (cmd, n))
    (hempty : [] ∉ signerKeys calls) :
    Built B (Signing.createTransaction B cmd.toValue) (signerKeys calls) := by
  have hsigners : cmd.signers = some (signerTable (mentionsOf calls)) := (contents_recipe h).signers
  have hname := named_recipe h
  have hdeclares := declares_toValue B hsigners hname
  rw [keys_signerTable] at hdeclares
  have hmember : cmd.toValue.optionalGet (js "signers") =
      .arr ((signerTable (mentionsOf calls)).map signerValue) := by
    rw [PactCommand.toValue, Value.optionalGet, lookup_map_member, if_pos hname, member_signers,
      hsigners]
    rfl
  refine ⟨hdeclares, nodup_signerKeys calls, hempty, rfl, ?_⟩
  have hlength : (signerTable (mentionsOf calls)).length = (signerKeys calls).length := by
    rw [signerKeys, ← keys_signerTable, List.length_map]
  simp only [Signing.createTransaction, signerCount, hmember, List.length_map, hlength]

theorem getMissingSigners_of_holds {cmd hash : JsString} {pubKeys : List JsString}
    {m : Store JsString JsString} {tx : Command} (hdecl : Declares cmd pubKeys)
    (h : Holds cmd hash pubKeys m tx) :
    getMissingSigners tx = pubKeys.filter fun k => (m k).isNone := by
  have hread : readSignerPubKeys tx = pubKeys :=
    readSignerPubKeys_of_declares (by rw [h.cmd]; exact hdecl)
  have hfilter : (pubKeys.zipIdx.filter fun entry => !isSlotFilled (slotAt tx.sigs entry.2)) =
      pubKeys.zipIdx.filter ((fun k => (m k).isNone) ∘ Prod.fst) := by
    apply List.filter_congr
    rintro ⟨k, i⟩ hmem
    rw [h.filled_iff (List.mk_mem_zipIdx_iff_getElem?.1 hmem), Function.comp]
    cases m k <;> rfl
  rw [getMissingSigners, hread, hfilter, ← List.filter_map, List.zipIdx_map_fst]

/-- Whatever has happened to a builder before, what it has answered makes such a transaction, also
at the end of the run. -/
theorem built_run (B : Backend) {clock : Nat → Nat} {start : Start} {heap : List Signer}
    {t : BuilderState}
    {trace : List (Transition.Record BuilderState Event (Option (Except Thrown Draft)))}
    (h : Transition.Run (builder clock (startDraft start) heap)
      (builder clock (startDraft start) heap).init trace t)
    {front back : List (Transition.Record BuilderState Event (Option (Except Thrown Draft)))}
    {r : Transition.Record BuilderState Event (Option (Except Thrown Draft))}
    (htrace : trace = front ++ r :: back) (hevent : r.event = .getCommand) {draft : Draft}
    (hout : r.out = some (.ok draft)) (hempty : [] ∉ signerKeys (callsOf front)) :
    Built B (createTransaction B t.world.heap draft) (signerKeys (callsOf front)) := by
  rcases run_getCommand_fresh rfl h htrace hevent with ⟨herror, hok⟩
  cases hrecipe : recipe clock (payloadOnly start.payload) r.pre.world.reads (callsOf front) with
  | error e =>
      rw [herror e hrecipe] at hout
      cases hout
  | ok stage =>
      rcases hok stage.1 stage.2 hrecipe with ⟨draft', hout', hview, -⟩
      obtain rfl : draft = draft' := Except.ok.inj (Option.some.inj (hout.symm.trans hout'))
      have hbuilt := built_recipe B hrecipe hempty
      rw [← hview] at hbuilt
      exact hbuilt

/-- Whatever has happened to a builder before, the transaction it makes declares every key that was
added, once; all of them are missing at first, and any sequence of signing parties fills exactly the
slots of those they hold keypairs for. -/
theorem createTransaction_signed {B : Backend} (hB : SignaturesNonEmpty B) {clock : Nat → Nat}
    {start : Start} {heap : List Signer} {t : BuilderState}
    {trace : List (Transition.Record BuilderState Event (Option (Except Thrown Draft)))}
    (h : Transition.Run (builder clock (startDraft start) heap)
      (builder clock (startDraft start) heap).init trace t)
    (front back : List (Transition.Record BuilderState Event (Option (Except Thrown Draft))))
    (r : Transition.Record BuilderState Event (Option (Except Thrown Draft)))
    (htrace : trace = front ++ r :: back) (hevent : r.event = .getCommand) {draft : Draft}
    (hout : r.out = some (.ok draft)) (hempty : [] ∉ signerKeys (callsOf front)) :
    getMissingSigners (createTransaction B t.world.heap draft) = signerKeys (callsOf front) ∧
    ∀ passes : List Pass,
      (∀ pass ∈ passes, SignsAlone B (createTransaction B t.world.heap draft).hash
        (signerKeys (callsOf front)) pass.keypairs) →
      ∃ final, runPasses B (createTransaction B t.world.heap draft) passes = .ok final ∧
        final.cmd = (createTransaction B t.world.heap draft).cmd ∧
        getFilledSigners final =
          (signerKeys (callsOf front)).filter (fun k => decide (Held passes k)) ∧
        (isFullySigned final = true ↔
          ∀ signer ∈ mentionsOf (callsOf front), Held passes signer.pubKey) := by
  have hbuilt := built_run B h htrace hevent hout hempty
  constructor
  · rw [getMissingSigners_of_holds hbuilt.declares hbuilt.holds]
    exact List.filter_eq_self.2 fun k _ => rfl
  · intro passes hsigns
    rcases runPasses_holds hbuilt.declares hbuilt.nodup hbuilt.nonempty hbuilt.hash.symm hB
      hsigns hbuilt.holds with ⟨final, hfinal, hholds⟩
    refine ⟨final, hfinal, hholds.cmd,
      hholds.filledSigners_of_passes hbuilt.declares hbuilt.nonempty, ?_⟩
    rw [hholds.fullySigned_of_passes hbuilt.declares hbuilt.nonempty]
    exact forall_mem_signerKeys

/-! ## The transfer, signed by two parties -/

/-- The text of the transfer. -/
def builtText : JsString :=
  js "\x7b\"payload\":\x7b\"exec\":\x7b\"code\":\"(transfer)\",\"data\":\x7b\"amount" ++
    js "\":\"1.0\",\"guard\":\x7b\"keys\":[\"a09aa5f47a6759802ff955f8dc2d2a14a5c99d23b" ++
    js "e97f864127ff9383455a4f0\"],\"pred\":\"keys-all\"\x7d\x7d\x7d\x7d,\"nonce\":\"s" ++
    js "toa-transfer\",\"signers\":[\x7b\"pubKey\":\"d04ab232742bb4ab3a1368bd4615e4e6d" ++
    js "0224ab71a016baf8520a332c9778737\",\"scheme\":\"ED25519\",\"clist\":[\x7b\"name" ++
    js "\":\"coin.GAS\",\"args\":[]\x7d,\x7b\"name\":\"coin.TRANSFER\",\"args\":[]\x7d" ++
    js "]\x7d,\x7b\"pubKey\":\"a09aa5f47a6759802ff955f8dc2d2a14a5c99d23be97f864127ff93" ++
    js "83455a4f0\",\"scheme\":\"ED25519\",\"clist\":[\x7b\"name\":\"coin.TRANSFER\"," ++
    js "\"args\":[]\x7d]\x7d],\"meta\":\x7b\"gasLimit\":2500,\"gasPrice\":1e-8,\"sende" ++
    js "r\":\"k:a\",\"ttl\":900,\"creationTime\":7,\"chainId\":\"1\"\x7d,\"verifiers\"" ++
    js ":[\x7b\"name\":\"zk\",\"proof\":null,\"clist\":[]\x7d],\"networkId\":\"stoa\"" ++
    js "\x7d"

/-- Its hash. -/
def builtHash : JsString := js "Xh60moSb7c_jqhxWKdshADhffv1Qqb6XQ74hVC0vdvY"

/-- The Ed25519 signatures of the hash. -/
def builtSignatures : List (NaclPair × JsString) :=
  [(⟨publicKeyA, secretKeyA⟩,
      hexText 64 0x50275d840af36904a61b1d5abd6a94589624852081b4768213e1e6ca2e9b36fe ++
        hexText 64 0x295084b5dfadc79db43f535dbc88a9b4fd9096b9b95da131fcad13797c5d7600),
    (⟨publicKeyB, secretKeyB⟩,
      hexText 64 0x5c536bf413f55f0c5cf56116da97dec1d4e01c62dc1b3ee46f856f9bd775d420 ++
        hexText 64 0xd44e68b88ce23067be741c5deeb29674ecd00ae3f558019b72210d37f3984e0a)]

/-- The libraries on the values of this example. -/
def builtBackend : Backend where
  signHash := fun hash keypair =>
    match builtSignatures.find? fun entry =>
        decide (hash = builtHash) && decide (entry.1 = keypair) with
    | some entry => .ok entry.2
    | none => .error (.external (js "bad key"))
  kadenaSign := fun _ _ _ => .error (.external (js "bad key"))
  publicKeyFromPrivateKey := fun _ => .error (.external (js "bad key"))
  hash := fun text => if text = builtText then builtHash else []

theorem signaturesNonEmpty_builtBackend : SignaturesNonEmpty builtBackend where
  nacl := by
    intro hash keypair sig hsign
    simp only [builtBackend] at hsign
    split at hsign
    · rename_i entry hentry
      cases hsign
      have hall : ∀ entry ∈ builtSignatures, entry.2 ≠ [] := by decide +kernel
      exact hall entry (List.mem_of_find?_eq_some hentry)
    · cases hsign
  chainweaver := by
    intro password hash key sig hsign
    cases hsign

def builtTransaction : Command :=
  createTransaction builtBackend transferAgain.post.world.heap transferDraft

theorem cmd_builtTransaction : builtTransaction.cmd = builtText := by
  decide +kernel

theorem hash_builtBackend (text : JsString) :
    builtBackend.hash text = if text = builtText then builtHash else [] := rfl

theorem hash_builtTransaction : builtTransaction.hash = builtHash := by
  have hhash := hash_createTransaction builtBackend transferAgain.post.world.heap transferDraft
  rw [← builtTransaction, cmd_builtTransaction, hash_builtBackend, if_pos rfl] at hhash
  exact hhash

theorem createTransaction_signed_transfer :
    getMissingSigners builtTransaction = [publicKeyA, publicKeyB] ∧
    (∃ half, runPasses builtBackend builtTransaction (transferPasses.take 1) = .ok half ∧
      getFilledSigners half = [publicKeyA] ∧ isFullySigned half = false) ∧
    ∃ final, runPasses builtBackend builtTransaction transferPasses = .ok final ∧
      final.cmd = builtText ∧ getFilledSigners final = [publicKeyA, publicKeyB] ∧
      isFullySigned final = true := by
  have hkeys : signerKeys (callsOf transferFront) = [publicKeyA, publicKeyB] := by decide +kernel
  have hempty : [] ∉ signerKeys (callsOf transferFront) := by
    rw [hkeys]
    decide +kernel
  have hsigned := createTransaction_signed signaturesNonEmpty_builtBackend transfer_run
    transferFront _ transferAsked rfl rfl out_transferAsked hempty
  rw [hkeys] at hsigned
  rcases hsigned with ⟨hmissing, hpasses⟩
  have hsigns : ∀ pass ∈ transferPasses,
      SignsAlone builtBackend builtTransaction.hash [publicKeyA, publicKeyB] pass.keypairs := by
    -- The table of the example has a signature for every relevant keypair.
    have hall : ∀ pass ∈ transferPasses, ∀ kp ∈ pass.keypairs, kp.key ∈ [publicKeyA, publicKeyB] →
        (keypairSignature builtBackend builtHash kp).toBool = true := by
      decide +kernel
    intro pass hpass kp hkp hkey
    rw [hash_builtTransaction]
    exact exists_ok (hall pass hpass kp hkp hkey)
  have htake : ∀ pass ∈ transferPasses.take 1,
      SignsAlone builtBackend builtTransaction.hash [publicKeyA, publicKeyB] pass.keypairs :=
    fun pass hpass => hsigns pass (List.mem_of_mem_take hpass)
  rcases hpasses _ htake with ⟨half, hhalf, -, hfilled, hfull⟩
  rcases hpasses _ hsigns with ⟨final, hfinal, hcmd, hfilled', hfull'⟩
  refine ⟨hmissing, ⟨half, hhalf, ?_, ?_⟩, final, hfinal, hcmd.trans cmd_builtTransaction, ?_, ?_⟩
  · rw [hfilled]
    decide +kernel
  · rw [Bool.eq_false_iff, ne_eq, hfull]
    decide +kernel
  · rw [hfilled']
    decide +kernel
  · rw [hfull']
    decide +kernel

end Client
end StoaCore
