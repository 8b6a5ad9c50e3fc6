import StoaCore.Client.BuilderSpec

/-!
# BuilderContents — what a recipe builds

The members of the finished command, read off the list of calls: the signers with all capabilities
of their keys, the verifiers, the network, the nonce, the meta data and the data of the payload.
-/

namespace StoaCore
namespace Client

open Library Library.Js Signing

/-! ## What a call contributes -/

def Call.mentions : Call → List Signer
  | .addSigner signers clist => signers.map (signerOf clist)
  | _ => []

def Call.verifiers : Call → List Verifier
  | .addVerifier name proof clist =>
      [{ name := name, proof := proof, clist := some (clist.getD []) }]
  | _ => []

def Call.networkIds : Call → List JsString
  | .setNetworkId id => [id]
  | _ => []

/-- The meta data of one `setMeta`, under the names they get. -/
def metaMembers (options : Members) : Members :=
  let senderAccount := (options.lookup (js "senderAccount")).getD .undefined
  options.filter (fun m => m.1 ≠ js "senderAccount") ++
    if senderAccount.isUndefined then [] else [(js "sender", senderAccount)]

def Call.metaMembers : Call → Members
  | .setMeta options => Client.metaMembers options
  | _ => []

/-- The entry of the payload's data that a call adds. -/
def Call.entries : Call → Members
  | .addData key value => [(key, value)]
  | .addKeyset key pred publicKeys => [(key, keysetValue pred publicKeys)]
  | _ => []

def Call.isSetNonce : Call → Bool
  | .setNonce _ => true
  | _ => false

def Call.isSetMeta : Call → Bool
  | .setMeta _ => true
  | _ => false

def mentionsOf (calls : List Call) : List Signer :=
  calls.flatMap Call.mentions

def Signer.caps (signer : Signer) : List Cap :=
  signer.clist.getD []

/-- All that is said about one key: the first mention, with the capabilities of all mentions. -/
def combined (mentions : List Signer) (pubKey : JsString) : Option Signer :=
  match mentions.filter fun s => s.pubKey = pubKey with
  | [] => none
  | [only] => some only
  | first :: rest => some { first with clist := some ((first :: rest).flatMap Signer.caps) }

/-- The signers of a finished command. -/
def signerTable (mentions : List Signer) : List Signer :=
  (mentions.map Signer.pubKey).eraseDups.filterMap (combined mentions)

theorem foldl_absorb (first : Signer) (rest : List Signer) :
    rest.foldl Signer.absorb first =
      if rest = [] then first
      else { first with clist := some ((first :: rest).flatMap Signer.caps) } := by
  induction rest generalizing first with
  | nil => rfl
  | cons next rest ih =>
      rw [List.foldl_cons, ih, if_neg (List.cons_ne_nil next rest)]
      split
      case isTrue h =>
        rw [h]
        simp [Signer.absorb, Signer.caps]
      case isFalse => simp [Signer.absorb, Signer.caps]

theorem grouped_eq_combined (mentions : List Signer) (pubKey : JsString) :
    KeyedTable.grouped Signer.pubKey Signer.absorb mentions pubKey =
      combined mentions pubKey := by
  unfold KeyedTable.grouped combined
  generalize (mentions.filter fun s => s.pubKey = pubKey) = rows
  rcases rows with _ | ⟨first, _ | ⟨next, rest⟩⟩
  · rfl
  · rfl
  · simp only [foldl_absorb, if_neg (List.cons_ne_nil next rest)]

theorem pubKey_absorb (first signer : Signer) : (first.absorb signer).pubKey = first.pubKey := rfl

theorem mergeAll_eq_signerTable (mentions : List Signer) :
    KeyedTable.mergeAll Signer.pubKey Signer.absorb [] mentions = signerTable mentions := by
  rw [KeyedTable.mergeAll_nil pubKey_absorb, signerTable]
  exact List.filterMap_congr fun k _ => grouped_eq_combined mentions k

/-! ## Patches, member by member -/

section Patches

variable {cmd v patch : PactCommand Signer}

theorem patchPayload_eq {state : PactCommand Signer} {newPayload : Option Payload}
    (h : patchPayload cmd newPayload = .ok state) :
    state = { cmd with payload := state.payload, names := state.names } := by
  cases newPayload with
  | none =>
      cases h
      rfl
  | some newPayload =>
      simp only [patchPayload] at h
      cases hmerge : mergePayload cmd.payload (some newPayload) with
      | error e =>
          rw [hmerge] at h
          cases h
      | ok payload =>
          rw [hmerge] at h
          cases h
          rfl

theorem patchMeta_eq (state : PactCommand Signer) (newMeta : Option Members) :
    patchMeta state newMeta =
      { state with
        metaData := (patchMeta state newMeta).metaData
        names := (patchMeta state newMeta).names } := by
  cases newMeta <;> rfl

theorem patchNonce_eq (state : PactCommand Signer) (nonce : Option JsString) :
    patchNonce state nonce =
      { state with nonce := nonce.or state.nonce, names := (patchNonce state nonce).names } := by
  cases nonce <;> rfl

theorem patchNetworkId_eq (state : PactCommand Signer) (networkId : Option JsString) :
    patchNetworkId state networkId =
      { state with
        networkId := networkId.or state.networkId
        names := (patchNetworkId state networkId).names } := by
  cases networkId <;> rfl

theorem foldl_addRow_eq (rows : List Signer) (state : PactCommand Signer) :
    rows.foldl addRow state =
      { state with
        signers := (rows.foldl addRow state).signers
        names := (rows.foldl addRow state).names } := by
  induction rows generalizing state with
  | nil => rfl
  | cons row rows ih =>
      rw [List.foldl_cons, ih]
      rfl

theorem patchVerifiers_eq (state : PactCommand Signer) (verifiers : Option (List Verifier)) :
    patchVerifiers state verifiers =
      { state with
        verifiers := (patchVerifiers state verifiers).verifiers
        names := (patchVerifiers state verifiers).names } := by
  rcases verifiers with _ | _ | _ <;> rfl

theorem verifiers_patchVerifiers (state : PactCommand Signer) (verifiers : Option (List Verifier)) :
    (patchVerifiers state verifiers).verifiers.getD [] =
      state.verifiers.getD [] ++ verifiers.getD [] := by
  rcases verifiers with _ | _ | _
  · exact (List.append_nil _).symm
  · exact (List.append_nil _).symm
  · rfl

theorem signers_foldl_addRow (rows : List Signer) (state : PactCommand Signer) :
    (rows.foldl addRow state).signers.getD [] =
      KeyedTable.mergeAll Signer.pubKey Signer.absorb (state.signers.getD []) rows := by
  induction rows generalizing state with
  | nil => rfl
  | cons row rows ih =>
      rw [List.foldl_cons, ih]
      rfl

/-- The members of a patched command. -/
structure Patched (cmd patch v : PactCommand Signer) : Prop where
  payload : ∃ state, patchPayload cmd patch.payload = .ok state ∧ v.payload = state.payload
  metaData : v.metaData = (patchMeta cmd patch.metaData).metaData
  nonce : v.nonce = patch.nonce.or cmd.nonce
  networkId : v.networkId = patch.networkId.or cmd.networkId
  signers : v.signers.getD [] = KeyedTable.mergeAll Signer.pubKey Signer.absorb
    (cmd.signers.getD []) (patch.signers.getD [])
  verifiers : v.verifiers.getD [] = cmd.verifiers.getD [] ++ patch.verifiers.getD []

theorem patched (h : patchValue cmd patch = .ok v) : Patched cmd patch v := by
  rcases bind_ok h with ⟨state, hstate, hrest⟩
  rcases bind_ok hstate with ⟨first, hfirst, hfields⟩
  cases hrest
  cases hfields
  have hsame := patchPayload_eq hfirst
  -- Each step sets one member; the others pass through it.
  refine ⟨⟨first, hfirst, ?_⟩, ?_, ?_, ?_, ?_, ?_⟩
  · rw [patchVerifiers_eq, foldl_addRow_eq, patchNetworkId_eq, patchNonce_eq, patchMeta_eq]
  · rw [patchVerifiers_eq, foldl_addRow_eq, patchNetworkId_eq, patchNonce_eq, hsame]
    cases patch.metaData <;> rfl
  · rw [patchVerifiers_eq, foldl_addRow_eq, patchNetworkId_eq, patchNonce_eq, patchMeta_eq, hsame]
  · rw [patchVerifiers_eq, foldl_addRow_eq, patchNetworkId_eq, patchNonce_eq, patchMeta_eq, hsame]
  · rw [patchVerifiers_eq]
    change ((patch.signers.getD []).foldl addRow _).signers.getD [] = _
    rw [signers_foldl_addRow, patchNetworkId_eq, patchNonce_eq, patchMeta_eq, hsame]
  · rw [verifiers_patchVerifiers, foldl_addRow_eq, patchNetworkId_eq, patchNonce_eq, patchMeta_eq,
      hsame]

end Patches

/-! ## Calls, member by member -/

/-- The patch that a call makes. -/
def patchOf (cmd : PactCommand Signer) : Call → PactCommand Signer
  | .addData key value => { payload := some (dataPatch cmd.payload key value) }
  | .addKeyset key pred publicKeys =>
      { payload := some (dataPatch cmd.payload key (keysetValue pred publicKeys)) }
  | .addSigner signers clist => { signers := some (signers.map (signerOf clist)) }
  | .addVerifier name proof clist =>
      { verifiers := some [{ name := name, proof := proof, clist := some (clist.getD []) }] }
  | .setMeta options => { metaData := some (metaPatch (cmd.metaData.getD []) options) }
  | .setNetworkId id => { networkId := some id }
  | .setNonce arg => { nonce := some (arg.value cmd) }

section Calls

variable {cmd v : PactCommand Signer} {c : Call}

theorem addDataValue_ok {key : JsString} {value : Value} (h : addDataValue cmd key value = .ok v) :
    hasData cmd.payload key = false ∧
      patchValue cmd { payload := some (dataPatch cmd.payload key value) } = .ok v := by
  unfold addDataValue at h
  split at h
  case isTrue => cases h
  case isFalse hfree => exact ⟨Bool.eq_false_iff.2 hfree, h⟩

theorem patched_of_callValue (h : callValue cmd c = .ok v) : Patched cmd (patchOf cmd c) v := by
  cases c with
  | addData key value => exact patched (addDataValue_ok h).2
  | addKeyset key pred publicKeys => exact patched (addDataValue_ok h).2
  | _ => exact patched h

theorem signers_patchOf (cmd : PactCommand Signer) (c : Call) :
    (patchOf cmd c).signers.getD [] = c.mentions := by
  cases c <;> rfl

theorem verifiers_patchOf (cmd : PactCommand Signer) (c : Call) :
    (patchOf cmd c).verifiers.getD [] = c.verifiers := by
  cases c <;> rfl

theorem networkId_patchOf (cmd : PactCommand Signer) (c : Call) :
    (patchOf cmd c).networkId = c.networkIds.getLast? := by
  cases c <;> rfl

end Calls

/-! ## Recipes, member by member -/

section Recipes

variable {clock : Nat → Nat} {init cmd : PactCommand Signer} {reads n : Nat} {calls : List Call}

theorem start_cases (h : recipe clock init reads [] = .ok (cmd, n)) :
    ∃ v, patchValue {} init = .ok v ∧ cmd = (finalized clock v reads).1 ∧
      n = (finalized clock v reads).2 := by
  rcases bind_ok h with ⟨stage, hstart, hnil⟩
  cases hnil
  rcases bind_ok hstart with ⟨v, hv, hfinal⟩
  have heq : finalized clock v reads = (cmd, n) := Except.ok.inj hfinal
  exact ⟨v, hv, by rw [heq], by rw [heq]⟩

/-- The table of signers: the initial ones and all that the calls mention, in order. -/
theorem signers_recipe (h : recipe clock init reads calls = .ok (cmd, n)) :
    cmd.signers = some (KeyedTable.mergeAll Signer.pubKey Signer.absorb []
      (init.signers.getD [] ++ mentionsOf calls)) := by
  -- On the calls from the last one backwards, as in every proof about recipes below.
  induction calls using List.reverseRecOn generalizing cmd n with
  | nil =>
      rcases start_cases h with ⟨v, hv, rfl, -⟩
      rw [signers_finalized, (patched hv).signers, mentionsOf, List.flatMap_nil,
        List.append_nil]
      rfl
  | append_singleton calls c ih =>
      rcases recipe_cases clock h with ⟨before, m, v, hbefore, hv, rfl, -⟩
      rw [signers_finalized, (patched_of_callValue hv).signers, signers_patchOf, ih hbefore,
        Option.getD_some, ← KeyedTable.mergeAll_append, List.append_assoc]
      simp [mentionsOf]

theorem verifiers_recipe (h : recipe clock init reads calls = .ok (cmd, n)) :
    cmd.verifiers.getD [] = init.verifiers.getD [] ++ calls.flatMap Call.verifiers := by
  induction calls using List.reverseRecOn generalizing cmd n with
  | nil =>
      rcases start_cases h with ⟨v, hv, rfl, -⟩
      rw [(fields_finalized clock v reads).1, (patched hv).verifiers]
      simp
  | append_singleton calls c ih =>
      rcases recipe_cases clock h with ⟨before, m, v, hbefore, hv, rfl, -⟩
      rw [(fields_finalized clock v m).1, (patched_of_callValue hv).verifiers, verifiers_patchOf,
        ih hbefore]
      simp

theorem networkId_recipe (h : recipe clock init reads calls = .ok (cmd, n)) :
    cmd.networkId = (calls.flatMap Call.networkIds).getLast?.or init.networkId := by
  induction calls using List.reverseRecOn generalizing cmd n with
  | nil =>
      rcases start_cases h with ⟨v, hv, rfl, -⟩
      rw [(fields_finalized clock v reads).2.1, (patched hv).networkId]
      simp
  | append_singleton calls c ih =>
      rcases recipe_cases clock h with ⟨before, m, v, hbefore, hv, rfl, -⟩
      rw [(fields_finalized clock v m).2.1, (patched_of_callValue hv).networkId, networkId_patchOf,
        ih hbefore, List.flatMap_append, List.flatMap_singleton, List.getLast?_append,
        Option.or_assoc]

/-- A nonce stays until the next `setNonce`. -/
theorem nonce_append {back : List Call} (hback : ∀ c ∈ back, c.isSetNonce = false)
    {nonce : JsString} {m : Nat} {before : PactCommand Signer}
    (hbefore : recipe clock init reads calls = .ok (before, m)) (hnonce : before.nonce = some nonce)
    (h : recipe clock init reads (calls ++ back) = .ok (cmd, n)) : cmd.nonce = some nonce := by
  induction back using List.reverseRecOn generalizing cmd n with
  | nil =>
      rw [List.append_nil, hbefore] at h
      cases h
      exact hnonce
  | append_singleton back c ih =>
      rw [← List.append_assoc] at h
      rcases recipe_cases clock h with ⟨middle, k, v, hmiddle, hv, rfl, -⟩
      have hc : c.isSetNonce = false := hback c (by simp)
      have hnone : (patchOf middle c).nonce = none := by
        cases c with
        | setNonce arg => cases hc
        | _ => rfl
      have hold := ih (fun d hd => hback d (by simp [hd])) hmiddle
      rw [(fields_finalized clock v k).2.2.1, (patched_of_callValue hv).nonce, hnone, hold]
      rfl

/-- Without a `setNonce`, the nonce tells when the builder's first command was finalized. -/
theorem nonce_recipe_default (hinit : init.nonce = none)
    (hcalls : ∀ c ∈ calls, c.isSetNonce = false)
    (h : recipe clock init reads calls = .ok (cmd, n)) :
    cmd.nonce = some (defaultNonce (clock reads)) := by
  have hprefix : recipe clock init reads ([] ++ calls) = .ok (cmd, n) := h
  rcases recipe_front clock hprefix with ⟨before, m, hbefore⟩
  refine nonce_append hcalls hbefore ?_ hprefix
  rcases start_cases hbefore with ⟨v, hv, rfl, -⟩
  rw [(fields_finalized clock v reads).2.2.1, (patched hv).nonce, hinit]
  rfl

/-- The last `setNonce` decides, and a function is given the command as it is at that point. -/
theorem nonce_recipe_last {front back : List Call} {arg : NonceArg}
    (hback : ∀ c ∈ back, c.isSetNonce = false)
    (h : recipe clock init reads (front ++ .setNonce arg :: back) = .ok (cmd, n)) :
    ∃ before m, recipe clock init reads front = .ok (before, m) ∧
      cmd.nonce = some (arg.value before) := by
  have hsplit : front ++ .setNonce arg :: back = (front ++ [.setNonce arg]) ++ back := by simp
  rw [hsplit] at h
  rcases recipe_front clock h with ⟨after, k, hafter⟩
  rcases recipe_cases clock hafter with ⟨before, m, v, hbefore, hv, hfinal, -⟩
  refine ⟨before, m, hbefore, nonce_append hback hafter ?_ h⟩
  rw [hfinal, (fields_finalized clock v m).2.2.1, (patched_of_callValue hv).nonce]
  rfl

end Recipes

/-! ## Meta data -/

theorem lookup_spreadAll (first second : Members) (name : JsString) :
    (spreadAll [first, second]).lookup name =
      (second.reverse.lookup name).or (first.reverse.lookup name) := by
  change ((Record.spread [] first).spread second).lookup name = _
  rw [Record.lookup_spread, Record.lookup_spread]
  simp

theorem nodup_spreadAll (first second : Members) :
    ((spreadAll [first, second]).map Prod.fst).Nodup :=
  Record.nodup_spread (Record.nodup_spread List.nodup_nil)

/-- The patch of a `setMeta` has its members, and under the other names what is there. -/
theorem lookup_metaPatch {current : Members} (hcurrent : (current.map Prod.fst).Nodup)
    (options : Members) (name : JsString) :
    (metaPatch current options).lookup name =
      ((metaMembers options).reverse.lookup name).or (current.lookup name) := by
  change (((Record.spread [] current).spread _).spread _).lookup name = _
  rw [Record.lookup_spread, Record.lookup_spread, Record.lookup_spread,
    Record.lookup_reverse hcurrent, metaMembers, List.reverse_append, List.lookup_append]
  simp [Option.or_assoc]

theorem nodup_metaPatch (current options : Members) :
    ((metaPatch current options).map Prod.fst).Nodup :=
  Record.nodup_spread (Record.nodup_spread (Record.nodup_spread List.nodup_nil))

/-- The names of the defaults are always the same. -/
theorem keys_defaultMeta (ms : Nat) :
    (defaultMeta ms).map Prod.fst =
      [js "gasLimit", js "gasPrice", js "sender", js "ttl", js "creationTime"] :=
  rfl

theorem nodup_defaultMeta (ms : Nat) : ((defaultMeta ms).map Prod.fst).Nodup := by
  rw [keys_defaultMeta]
  decide

theorem lookup_defaultMeta_none {ms ms' : Nat} {name : JsString}
    (h : (defaultMeta ms).lookup name = none) : (defaultMeta ms').lookup name = none := by
  rw [Record.lookup_eq_none_iff] at h ⊢
  exact h

/-- The meta data holds the members given so far, the latest first, over the defaults of `ms`. -/
def MetaHolds (cmd : PactCommand Signer) (given : Members) (ms : Nat) : Prop :=
  ∃ members, cmd.metaData = some members ∧ (members.map Prod.fst).Nodup ∧
    ∀ name, members.lookup name =
      (given.reverse.lookup name).or ((defaultMeta ms).lookup name)

section Meta

variable {clock : Nat → Nat} {init cmd before v : PactCommand Signer} {reads n m ms : Nat}
  {calls : List Call} {given : Members} {c : Call}

/-- A later finalization finds every default in place. -/
theorem metaHolds_finalized {members : Members} (hv : v.metaData = some members)
    (hnodup : (members.map Prod.fst).Nodup)
    (hlookup : ∀ name, members.lookup name =
      (given.reverse.lookup name).or ((defaultMeta ms).lookup name)) :
    MetaHolds (finalized clock v m).1 given ms := by
  refine ⟨spreadAll [defaultMeta (clock (m + 1)), members], ?_, nodup_spreadAll _ _, fun name => ?_⟩
  · rw [(metaData_finalized clock v m).1, hv]
    rfl
  · rw [lookup_spreadAll, Record.lookup_reverse hnodup,
      Record.lookup_reverse (nodup_defaultMeta _), hlookup]
    cases hgiven : given.reverse.lookup name with
    | some w => rfl
    | none =>
        cases hms : (defaultMeta ms).lookup name with
        | some w => rfl
        | none => rw [lookup_defaultMeta_none hms]; rfl

theorem no_meta (h : c.isSetMeta = false) (cmd : PactCommand Signer) :
    (patchOf cmd c).metaData = none ∧ c.metaMembers = [] := by
  cases c with
  | setMeta options => cases h
  | _ => exact ⟨rfl, rfl⟩

/-- A call that is no `setMeta` hands the meta data on. -/
theorem metaData_of_callValue (h : c.isSetMeta = false) (hv : callValue before c = .ok v) :
    v.metaData = before.metaData := by
  rw [(patched_of_callValue hv).metaData, (no_meta h before).1]
  rfl

theorem metaHolds_call (hbefore : MetaHolds before given ms) (hv : callValue before c = .ok v) :
    MetaHolds (finalized clock v m).1 (given ++ c.metaMembers) ms := by
  rcases hbefore with ⟨members, hmembers, hnodup, hlookup⟩
  cases hc : c.isSetMeta with
  | true =>
      cases c with
      | setMeta options =>
          refine metaHolds_finalized (patched_of_callValue hv).metaData (nodup_spreadAll _ _)
            fun name => ?_
          rw [hmembers, Option.getD_some, lookup_spreadAll,
            Record.lookup_reverse (nodup_metaPatch _ _), lookup_metaPatch hnodup,
            Record.lookup_reverse hnodup, hlookup, Call.metaMembers, List.reverse_append,
            List.lookup_append]
          cases (metaMembers options).reverse.lookup name <;>
            cases given.reverse.lookup name <;> cases (defaultMeta ms).lookup name <;> rfl
      | _ => cases hc
  | false =>
      rw [(no_meta hc before).2, List.append_nil]
      exact metaHolds_finalized ((metaData_of_callValue hc hv).trans hmembers) hnodup hlookup

/-- Before the first `setMeta` there is no meta data, and the clock is read once for each call. -/
theorem metaData_recipe_none (hinit : init.metaData = none)
    (hcalls : ∀ c ∈ calls, c.isSetMeta = false)
    (h : recipe clock init reads calls = .ok (cmd, n)) :
    cmd.metaData = none ∧ n = reads + 1 + calls.length := by
  induction calls using List.reverseRecOn generalizing cmd n with
  | nil =>
      rcases start_cases h with ⟨v, hv, rfl, rfl⟩
      have hnone : v.metaData = none := by
        rw [(patched hv).metaData, hinit]
        rfl
      rw [(metaData_finalized clock v reads).1, (metaData_finalized clock v reads).2, hnone]
      exact ⟨rfl, rfl⟩
  | append_singleton calls c ih =>
      rcases recipe_cases clock h with ⟨before, m, v, hbefore, hv, rfl, rfl⟩
      rcases ih (fun d hd => hcalls d (by simp [hd])) hbefore with ⟨hnone, rfl⟩
      have hv' : v.metaData = none := by
        rw [metaData_of_callValue (hcalls c (by simp)) hv, hnone]
      rw [(metaData_finalized clock v _).1, (metaData_finalized clock v _).2, hv',
        List.length_append]
      exact ⟨rfl, rfl⟩

theorem metaHolds_recipe {front back : List Call} {options : Members} (hinit : init.metaData = none)
    (hfront : ∀ c ∈ front, c.isSetMeta = false)
    (h : recipe clock init reads (front ++ .setMeta options :: back) = .ok (cmd, n)) :
    MetaHolds cmd ((front ++ .setMeta options :: back).flatMap Call.metaMembers)
      (clock (reads + front.length + 2)) := by
  have hsplit : front ++ .setMeta options :: back = (front ++ [.setMeta options]) ++ back := by simp
  rw [hsplit] at h ⊢
  clear hsplit
  induction back using List.reverseRecOn generalizing cmd n with
  | nil =>
      rw [List.append_nil] at h ⊢
      rcases recipe_cases clock h with ⟨before, m, v, hbefore, hv, rfl, -⟩
      rcases metaData_recipe_none hinit hfront hbefore with ⟨hnone, rfl⟩
      have hmeta : v.metaData = some (spreadAll [before.metaData.getD [],
          metaPatch (before.metaData.getD []) options]) := (patched_of_callValue hv).metaData
      rw [hnone, Option.getD_none] at hmeta
      have hempty : (([] : Members).map Prod.fst).Nodup := List.nodup_nil
      have hgiven : (front ++ [Call.setMeta options]).flatMap Call.metaMembers =
          metaMembers options := by
        rw [List.flatMap_append,
          List.flatMap_eq_nil_iff.2 fun c hc => (no_meta (hfront c hc) before).2]
        simp [Call.metaMembers]
      rw [hgiven]
      refine ⟨spreadAll [defaultMeta (clock (reads + front.length + 2)),
        spreadAll [[], metaPatch [] options]], ?_, nodup_spreadAll _ _, fun name => ?_⟩
      · rw [(metaData_finalized clock v _).1, hmeta]
        have hindex : reads + 1 + front.length + 1 = reads + front.length + 2 := by omega
        rw [hindex]
        rfl
      · rw [lookup_spreadAll, Record.lookup_reverse (nodup_spreadAll _ _),
          Record.lookup_reverse (nodup_defaultMeta _), lookup_spreadAll,
          Record.lookup_reverse (nodup_metaPatch _ _), lookup_metaPatch hempty]
        simp
  | append_singleton back c ih =>
      rw [← List.append_assoc] at h ⊢
      rcases recipe_cases clock h with ⟨before, m, v, hbefore, hv, rfl, -⟩
      rw [List.flatMap_append, List.flatMap_singleton]
      exact metaHolds_call (ih hbefore) hv

end Meta

/-! ## Contents -/

/-- What `getCommand` returns apart from the payload, for a builder that starts with a payload only:
`clock reads` is the time of the first finalization. -/
structure Contents (clock : Nat → Nat) (init : PactCommand Signer) (reads : Nat)
    (calls : List Call) (cmd : PactCommand Signer) : Prop where
  signers : cmd.signers = some (signerTable (mentionsOf calls))
  verifiers : cmd.verifiers.getD [] = calls.flatMap Call.verifiers
  networkId : cmd.networkId = (calls.flatMap Call.networkIds).getLast?
  defaultNonce : (∀ c ∈ calls, c.isSetNonce = false) →
    cmd.nonce = some (defaultNonce (clock reads))
  nonce : ∀ front arg back, calls = front ++ .setNonce arg :: back →
    (∀ c ∈ back, c.isSetNonce = false) →
    ∃ before m, recipe clock init reads front = .ok (before, m) ∧
      cmd.nonce = some (arg.value before)
  noMeta : (∀ c ∈ calls, c.isSetMeta = false) → cmd.metaData = none
  metaData : ∀ front options back, calls = front ++ .setMeta options :: back →
    (∀ c ∈ front, c.isSetMeta = false) →
    MetaHolds cmd (calls.flatMap Call.metaMembers) (clock (reads + front.length + 2))

/-- A command with a payload only. -/
def payloadOnly (payload : Payload) : PactCommand Signer :=
  { payload := some payload }

theorem contents_recipe {clock : Nat → Nat} {start : Payload} {cmd : PactCommand Signer}
    {reads n : Nat} {calls : List Call}
    (h : recipe clock (payloadOnly start) reads calls = .ok (cmd, n)) :
    Contents clock (payloadOnly start) reads calls cmd where
  signers := by
    rw [signers_recipe h, ← mergeAll_eq_signerTable]
    rfl
  verifiers := by
    rw [verifiers_recipe h]
    rfl
  networkId := by
    rw [networkId_recipe h]
    exact Option.or_none
  defaultNonce hcalls := nonce_recipe_default rfl hcalls h
  nonce front arg back hcalls hback := by
    subst hcalls
    exact nonce_recipe_last hback h
  noMeta hcalls := (metaData_recipe_none rfl hcalls h).1
  metaData front options back hcalls hfront := by
    subst hcalls
    exact metaHolds_recipe rfl hfront h

end Client
end StoaCore
