import StoaCore.Client.BuilderContents

/-!
# BuilderData — the payload that a builder grows

The code of an execution and the step of a continuation never change; the data gets one entry from
every `addData` and `addKeyset`.  A name is refused when the data has it already, and also when
every object inherits it.
-/

namespace StoaCore
namespace Client

open Library Library.Js Signing

/-! ## The data of a payload -/

/-- The payload has an object as its data. -/
inductive DataOf : Payload → Members → Prop
  | exec (code : JsString) (data : Members) : DataOf (.exec (some code) (some data)) data
  | cont (fields data : Members) (h : contData fields = .obj data) : DataOf (.cont fields) data

/-- The proof of a finalized continuation. -/
def finalProof (fields : Members) : Value :=
  let proof := (fields.lookup (js "proof")).getD .undefined
  if proof.isNullish then .null else proof

/-- The second payload is the finalized first one, apart from the data. -/
inductive SameRest : Payload → Payload → Prop
  | exec (code : Option JsString) (data data' : Option Members) :
      SameRest (.exec code data) (.exec code data')
  | cont (fields fields' : Members) (hnodup : (fields'.map Prod.fst).Nodup)
      (hproof : fields'.lookup (js "proof") = some (finalProof fields))
      (h : ∀ name, name ≠ js "data" → name ≠ js "proof" →
        fields'.lookup name = fields.lookup name) :
      SameRest (.cont fields) (.cont fields')

/-- The names of the payload of a continuation are distinct, as in every object. -/
def WellFormed : Payload → Prop
  | .exec _ _ => True
  | .cont fields => (fields.map Prod.fst).Nodup

section Payloads

variable {start p : Payload} {data : Members} {key : JsString} {value : Value}

theorem hasData_eq (h : DataOf p data) (key : JsString) :
    hasData (some p) key = isTaken data key := by
  cases h with
  | exec code data => rfl
  | cont fields data hdata => simp only [hasData, hdata]

theorem contData_assign (fields data : Members) :
    contData (Record.assign fields (js "data") (.obj data)) = .obj data := by
  simp [contData]

/-- The patch of `addData` goes into the payload that is there. -/
theorem mergePayload_dataPatch (start : Payload) (h : DataOf p data) (key : JsString)
    (value : Value) :
    ∃ p', mergePayload (some p) (some (dataPatch (some p) key value)) = .ok (some p') ∧
      DataOf p' (spreadAll [data, [(key, value)]]) ∧ (SameRest start p → SameRest start p') := by
  cases h with
  | exec code data =>
      refine ⟨.exec (some (code ++ [])) (some (spreadAll [data, [(key, value)]])), rfl, .exec _ _,
        fun hsame => ?_⟩
      rw [List.append_nil]
      cases hsame with
      | exec _ data₀ _ => exact .exec _ _ _
  | cont fields data hdata =>
      refine ⟨.cont (Record.assign (spreadAll [fields, [(js "data", .obj [(key, value)])]])
        (js "data") (.obj (spreadAll [data, [(key, value)]]))), ?_, .cont _ _ (contData_assign _ _),
        fun hsame => ?_⟩
      · simp only [mergePayload, dataPatch, hdata, membersOf]
        rfl
      · cases hsame with
        | cont fields₀ _ hnodup hproof hrest =>
            have hother : ∀ name, name ≠ js "data" →
                (Record.assign (spreadAll [fields, [(js "data", .obj [(key, value)])]]) (js "data")
                  (.obj (spreadAll [data, [(key, value)]]))).lookup name = fields.lookup name := by
              intro name hname
              have hbeq : (name == js "data") = false := by simpa using hname
              rw [Record.lookup_assign, if_neg hname, lookup_spreadAll,
                Record.lookup_reverse hnodup]
              simp [List.lookup_cons, hbeq]
            refine .cont _ _ (Record.nodup_assign (nodup_spreadAll _ _)) ?_
              fun name hdata hname => ?_
            · rw [hother _ (by decide), hproof]
            · rw [hother name hdata, hrest name hdata hname]

theorem eq_null_of_finalProof {fields : Members} (h : (finalProof fields).isNullish = true) :
    finalProof fields = .null := by
  unfold finalProof at h ⊢
  by_cases hproof : ((fields.lookup (js "proof")).getD .undefined).isNullish = true
  · exact if_pos hproof
  · rw [if_neg hproof] at h
    exact absurd h hproof

/-- A finalized payload stays as it is. -/
theorem finalizePayload_of_sameRest (h : SameRest start p) : finalizePayload p = p := by
  cases h with
  | exec => rfl
  | cont fields fields' hnodup hproof hrest =>
      simp only [finalizePayload, hproof, Option.getD_some]
      split
      case isTrue hnull =>
        rw [Record.assign_of_lookup hnodup
          (hproof.trans (congrArg some (eq_null_of_finalProof hnull)))]
      case isFalse => rfl

/-- The first finalization. -/
theorem sameRest_finalizePayload (h : WellFormed start) :
    SameRest start (finalizePayload start) := by
  cases start with
  | exec code data => exact .exec _ _ _
  | cont fields =>
      simp only [finalizePayload]
      by_cases hnull : ((fields.lookup (js "proof")).getD .undefined).isNullish = true
      · rw [if_pos hnull]
        refine .cont _ _ (Record.nodup_assign h) ?_ fun name _ hname => ?_
        · rw [Record.lookup_assign, if_pos rfl, finalProof, if_pos hnull]
        · rw [Record.lookup_assign, if_neg hname]
      · rw [if_neg hnull]
        refine .cont _ _ h ?_ fun name _ _ => rfl
        rw [finalProof, if_neg hnull]
        cases hlookup : fields.lookup (js "proof") with
        | none =>
            rw [hlookup] at hnull
            exact absurd rfl hnull
        | some v => rfl

theorem dataOf_finalizePayload (h : DataOf start data) : DataOf (finalizePayload start) data := by
  cases h with
  | exec code data => exact .exec _ _
  | cont fields data hdata =>
      simp only [finalizePayload]
      split
      case isTrue =>
        refine .cont _ _ ?_
        rw [contData, Record.lookup_assign, if_neg (by decide)]
        exact hdata
      case isFalse => exact .cont _ _ hdata

end Payloads

/-! ## Calls and the payload -/

/-- The names of the entries, in the order of the calls. -/
def entryNames (calls : List Call) : List JsString :=
  (calls.flatMap Call.entries).map Prod.fst

/-- Names that `addData` accepts one after the other over these data. -/
def Acceptable (data : Members) (names : List JsString) : Prop :=
  names.Nodup ∧
    ∀ name ∈ names, name ∉ data.map Prod.fst ∧ name ∉ objectPrototype.map Prod.fst

/-- No member is `undefined`. -/
def AllDefined (members : Members) : Prop :=
  ∀ m ∈ members, m.2.isUndefined = false

/-- A call adds one entry, if the name is free, or leaves the payload alone and succeeds. -/
theorem entries_cases (c : Call) :
    (c.entries = [] ∧ ∀ cmd, (patchOf cmd c).payload = none ∧
      callValue cmd c = patchValue cmd (patchOf cmd c)) ∨
    ∃ key value, c.entries = [(key, value)] ∧ ∀ cmd,
      (patchOf cmd c).payload = some (dataPatch cmd.payload key value) ∧
      callValue cmd c = addDataValue cmd key value := by
  cases c with
  | addData key value => exact Or.inr ⟨key, value, rfl, fun cmd => ⟨rfl, rfl⟩⟩
  | addKeyset key pred publicKeys => exact Or.inr ⟨key, _, rfl, fun cmd => ⟨rfl, rfl⟩⟩
  | _ => exact Or.inl ⟨rfl, fun cmd => ⟨rfl, rfl⟩⟩

theorem patchValue_isOk {cmd patch state : PactCommand Signer}
    (h : patchPayload cmd patch.payload = .ok state) : ∃ v, patchValue cmd patch = .ok v := by
  simp only [patchValue, patchFields, h, ok_bind]
  exact ⟨_, rfl⟩

/-- What has become of the payload: the data has these entries over the first data. -/
def Grown (start : Payload) (data₀ given : Members) (cmd : PactCommand Signer) : Prop :=
  ∃ p data, cmd.payload = some p ∧ SameRest start p ∧ DataOf p data ∧
    (data.map Prod.fst).Nodup ∧
    ∀ name, data.lookup name = (given.reverse.lookup name).or (data₀.lookup name)

section Growth

variable {clock : Nat → Nat} {init cmd before v : PactCommand Signer} {reads n m : Nat}
  {start : Payload} {data₀ given : Members} {calls : List Call} {c : Call}

theorem grown_start (hinit : init.payload = some start) (hwf : WellFormed start)
    (hdata : DataOf start data₀) (hnodup : (data₀.map Prod.fst).Nodup)
    (hv : patchValue {} init = .ok v) : Grown start data₀ [] (finalized clock v reads).1 := by
  rcases (patched hv).payload with ⟨state, hstate, hpayload⟩
  rw [hinit] at hstate
  cases hstate
  refine ⟨finalizePayload start, data₀, ?_, sameRest_finalizePayload hwf,
    dataOf_finalizePayload hdata, hnodup, fun name => rfl⟩
  rw [(fields_finalized clock v reads).2.2.2, hpayload]
  rfl

theorem grown_call (hbefore : Grown start data₀ given before) (hv : callValue before c = .ok v) :
    Grown start data₀ (given ++ c.entries) (finalized clock v m).1 := by
  rcases hbefore with ⟨p, data, hp, hsame, hdata, hnodup, hlookup⟩
  rcases (patched_of_callValue hv).payload with ⟨state, hstate, hpayload⟩
  rcases entries_cases c with ⟨hnil, hcall⟩ | ⟨key, value, hentry, hcall⟩
  · rw [(hcall before).1] at hstate
    cases hstate
    rw [hnil, List.append_nil]
    refine ⟨p, data, ?_, hsame, hdata, hnodup, hlookup⟩
    rw [(fields_finalized clock v m).2.2.2, hpayload, hp, Option.map_some,
      finalizePayload_of_sameRest hsame]
  · rcases mergePayload_dataPatch start hdata key value with ⟨p', hmerge, hdata', hrest⟩
    rw [(hcall before).1, hp, patchPayload, hp, hmerge] at hstate
    cases hstate
    refine ⟨p', _, ?_, hrest hsame, hdata', nodup_spreadAll _ _, fun name => ?_⟩
    · rw [(fields_finalized clock v m).2.2.2, hpayload]
      exact congrArg some (finalizePayload_of_sameRest (hrest hsame))
    · rw [lookup_spreadAll, Record.lookup_reverse hnodup, hlookup, hentry, List.reverse_append,
        List.lookup_append, Option.or_assoc]

/-- A name is taken when an entry or the first data has it, or every object inherits it. -/
theorem isTaken_iff {data : Members} (hgiven : AllDefined given) (hdata₀ : AllDefined data₀)
    (hlookup : ∀ name, data.lookup name = (given.reverse.lookup name).or (data₀.lookup name))
    (key : JsString) :
    isTaken data key = true ↔
      key ∈ given.map Prod.fst ∨ key ∈ data₀.map Prod.fst ∨
        key ∈ objectPrototype.map Prod.fst := by
  have hreverse : key ∈ given.reverse.map Prod.fst ↔ key ∈ given.map Prod.fst := by simp
  unfold isTaken Record.property
  rw [hlookup key]
  cases hg : given.reverse.lookup key with
  | some w =>
      rcases mem_of_lookup hg with ⟨m, hm, rfl⟩
      simp [hgiven m (List.mem_reverse.1 hm), hreverse.1 (Record.mem_keys_of_lookup hg)]
  | none =>
      rw [Record.lookup_eq_none_iff, hreverse] at hg
      cases hd : data₀.lookup key with
      | some w =>
          rcases mem_of_lookup hd with ⟨m, hm, rfl⟩
          simp [hdata₀ m hm, Record.mem_keys_of_lookup hd]
      | none =>
          rw [Record.lookup_eq_none_iff] at hd
          cases hproto : objectPrototype.lookup key with
          | some text =>
              have hinherited : key ∈ objectPrototype.map Prod.fst :=
                Record.mem_keys_of_lookup hproto
              simp [hinherited]
          | none =>
              rw [Record.lookup_eq_none_iff] at hproto
              simp [hg, hd, hproto]

/-- A call fails in one case only. -/
theorem callValue_outcome (hbefore : Grown start data₀ given before) (hgiven : AllDefined given)
    (hdata₀ : AllDefined data₀) (c : Call) :
    (c.entries = [] ∧ ∃ v, callValue before c = .ok v) ∨
    ∃ key value, c.entries = [(key, value)] ∧
      (((key ∈ given.map Prod.fst ∨ key ∈ data₀.map Prod.fst ∨
          key ∈ objectPrototype.map Prod.fst) ∧
        callValue before c = .error (duplicatedKey key)) ∨
      (¬ (key ∈ given.map Prod.fst ∨ key ∈ data₀.map Prod.fst ∨
          key ∈ objectPrototype.map Prod.fst) ∧
        ∃ v, callValue before c = .ok v)) := by
  rcases hbefore with ⟨p, data, hp, hsame, hdata, hnodup, hlookup⟩
  rcases entries_cases c with ⟨hnil, hcall⟩ | ⟨key, value, hentry, hcall⟩
  · refine Or.inl ⟨hnil, ?_⟩
    have hpayload : patchPayload before (patchOf before c).payload = .ok before := by
      rw [(hcall before).1]
      rfl
    rw [(hcall before).2]
    exact patchValue_isOk hpayload
  · refine Or.inr ⟨key, value, hentry, ?_⟩
    have htaken := isTaken_iff hgiven hdata₀ hlookup key
    rw [(hcall before).2, addDataValue, hp, hasData_eq hdata]
    by_cases h : isTaken data key = true
    · exact Or.inl ⟨htaken.1 h, if_pos h⟩
    · rw [if_neg h]
      rcases mergePayload_dataPatch start hdata key value with ⟨p', hmerge, -, -⟩
      have hpayload : patchPayload before (some (dataPatch (some p) key value)) =
          .ok (before.setPayload (some p')) := by
        rw [patchPayload, hp, hmerge]
        rfl
      exact Or.inr ⟨fun hor => h (htaken.2 hor), patchValue_isOk hpayload⟩

/-- One more name is acceptable when it is not taken. -/
theorem acceptable_concat {names : List JsString} {key : JsString}
    (h : Acceptable data₀ names) :
    Acceptable data₀ (names ++ [key]) ↔
      ¬ (key ∈ names ∨ key ∈ data₀.map Prod.fst ∨ key ∈ objectPrototype.map Prod.fst) := by
  rw [not_or, not_or]
  constructor
  · rintro ⟨hnodup, hfree⟩
    refine ⟨fun hmem => ?_, hfree key (by simp)⟩
    exact (List.nodup_append.1 hnodup).2.2 key hmem key (by simp) rfl
  · rintro ⟨hnot, hfree⟩
    refine ⟨List.nodup_append.2 ⟨h.1, by simp, fun a ha b hb heq => ?_⟩, fun name hname => ?_⟩
    · exact hnot (List.mem_singleton.1 hb ▸ heq ▸ ha)
    · rcases List.mem_append.1 hname with hname | hname
      · exact h.2 name hname
      · rw [List.mem_singleton.1 hname]
        exact hfree

/-- Once a name is refused, so is every longer list of calls. -/
theorem not_acceptable_later {key : JsString} {value : Value} (hentry : c.entries = [(key, value)])
    (hbad : ¬ Acceptable data₀ (entryNames calls ++ [key])) (more : List Call) :
    ¬ Acceptable data₀ (entryNames (calls ++ c :: more)) := by
  have hnames : entryNames (calls ++ c :: more) =
      (entryNames calls ++ [key]) ++ entryNames more := by
    simp [entryNames, hentry]
  rw [hnames]
  rintro ⟨hnodup, hfree⟩
  exact hbad ⟨(List.nodup_append.1 hnodup).1, fun name hname =>
    hfree name (List.mem_append_left _ hname)⟩

/-- The first name that is refused is determined by the calls. -/
theorem first_refused_unique {front rest front' rest' : List Call} {c' : Call}
    {key key' : JsString} {value value' : Value}
    (hsplit : front ++ c :: rest = front' ++ c' :: rest')
    (hentry : c.entries = [(key, value)]) (hentry' : c'.entries = [(key', value')])
    (hgood : Acceptable data₀ (entryNames front))
    (hbad : ¬ Acceptable data₀ (entryNames front ++ [key]))
    (hgood' : Acceptable data₀ (entryNames front'))
    (hbad' : ¬ Acceptable data₀ (entryNames front' ++ [key'])) : key = key' := by
  -- If one splitting were earlier, its name would be refused within the acceptable calls of the
  -- other.
  rcases List.append_eq_append_iff.1 hsplit with ⟨middle, rfl, hrest⟩ | ⟨middle, rfl, hrest⟩
  · cases middle with
    | nil =>
        obtain rfl := (List.cons.inj hrest).1
        rw [hentry] at hentry'
        exact congrArg Prod.fst (List.cons.inj hentry').1
    | cons d middle =>
        obtain rfl := (List.cons.inj hrest).1
        exact absurd hgood' (not_acceptable_later hentry hbad middle)
  · cases middle with
    | nil =>
        obtain rfl := (List.cons.inj hrest).1
        rw [hentry] at hentry'
        exact congrArg Prod.fst (List.cons.inj hentry').1
    | cons d middle =>
        obtain rfl := (List.cons.inj hrest).1
        exact absurd hgood (not_acceptable_later hentry' hbad' middle)

/-- A recipe without calls succeeds. -/
theorem startStage_grown (hinit : init.payload = some start) (hwf : WellFormed start)
    (hdata : DataOf start data₀) (hnodup : (data₀.map Prod.fst).Nodup) :
    ∃ cmd n, recipe clock init reads [] = .ok (cmd, n) ∧ Grown start data₀ [] cmd := by
  have hpayload : patchPayload {} init.payload =
      .ok (({} : PactCommand Signer).setPayload (some start)) := by
    rw [hinit]
    rfl
  rcases patchValue_isOk hpayload with ⟨v, hv⟩
  refine ⟨(finalized clock v reads).1, (finalized clock v reads).2, ?_,
    grown_start hinit hwf hdata hnodup hv⟩
  simp only [recipe, startStage, hv, ok_bind]
  rfl

/-- One more call goes through if its name is acceptable, and is refused otherwise. -/
theorem nextStage_outcome (hgrown : Grown start data₀ (calls.flatMap Call.entries) before)
    (hgiven : AllDefined (calls.flatMap Call.entries)) (hdata₀ : AllDefined data₀)
    (haccept : Acceptable data₀ (entryNames calls)) (n : Nat) (c : Call) :
    (∃ cmd m, nextStage clock (before, n) c = .ok (cmd, m) ∧
      Acceptable data₀ (entryNames (calls ++ [c])) ∧
      Grown start data₀ ((calls ++ [c]).flatMap Call.entries) cmd) ∨
    ∃ key value, c.entries = [(key, value)] ∧ ¬ Acceptable data₀ (entryNames calls ++ [key]) ∧
      nextStage clock (before, n) c = .error (duplicatedKey key) := by
  have hnames : entryNames (calls ++ [c]) = entryNames calls ++ c.entries.map Prod.fst := by
    simp [entryNames]
  have hnext : ∀ v, callValue before c = .ok v →
      nextStage clock (before, n) c = .ok (finalized clock v n) ∧
        Grown start data₀ ((calls ++ [c]).flatMap Call.entries) (finalized clock v n).1 := by
    intro v hv
    constructor
    · simp only [nextStage, hv, ok_bind]
      rfl
    · rw [List.flatMap_append, List.flatMap_singleton]
      exact grown_call hgrown hv
  rw [hnames]
  -- A call gives one name or none, and a name is free or taken.
  rcases callValue_outcome hgrown hgiven hdata₀ c with
    ⟨hnil, v, hv⟩ | ⟨key, value, hentry, ⟨htaken, hcall⟩ | ⟨hfree, v, hv⟩⟩
  · rw [hnil, List.map_nil, List.append_nil]
    exact Or.inl ⟨_, _, (hnext v hv).1, haccept, (hnext v hv).2⟩
  · refine Or.inr ⟨key, value, hentry, ?_, ?_⟩
    · rw [acceptable_concat haccept]
      exact not_not.2 htaken
    · simp only [nextStage, hcall]
      rfl
  · rw [hentry]
    exact Or.inl ⟨_, _, (hnext v hv).1, (acceptable_concat haccept).2 hfree, (hnext v hv).2⟩

/-- A recipe succeeds as long as the names are acceptable, and fails at the first one that is
not. -/
theorem recipe_outcome (hinit : init.payload = some start) (hwf : WellFormed start)
    (hdata : DataOf start data₀) (hnodup : (data₀.map Prod.fst).Nodup) (hdata₀ : AllDefined data₀)
    (hcalls : AllDefined (calls.flatMap Call.entries)) :
    (∀ cmd n, recipe clock init reads calls = .ok (cmd, n) →
      Acceptable data₀ (entryNames calls) ∧
        Grown start data₀ (calls.flatMap Call.entries) cmd) ∧
    ∀ e, recipe clock init reads calls = .error e →
      ∃ front c back key value, calls = front ++ c :: back ∧ c.entries = [(key, value)] ∧
        Acceptable data₀ (entryNames front) ∧ ¬ Acceptable data₀ (entryNames front ++ [key]) ∧
        e = duplicatedKey key := by
  -- On the calls, from the last one: a failure before it is passed on.
  induction calls using List.reverseRecOn with
  | nil =>
      rcases @startStage_grown clock init reads start data₀ hinit hwf hdata hnodup with
        ⟨cmd, n, hrecipe, hgrown⟩
      rw [hrecipe]
      refine ⟨fun cmd' n' hcmd => ?_, fun e he => by cases he⟩
      cases hcmd
      exact ⟨⟨List.nodup_nil, fun name hname => by cases hname⟩, hgrown⟩
  | append_singleton calls c ih =>
      have hgiven : AllDefined (calls.flatMap Call.entries) := fun m hm =>
        hcalls m (by rw [List.flatMap_append]; exact List.mem_append_left _ hm)
      rcases ih hgiven with ⟨hok, herror⟩
      rw [recipe_concat]
      cases hbefore : recipe clock init reads calls with
      | error e =>
          refine ⟨fun cmd n hcmd => (by cases hcmd), fun e' he' => ?_⟩
          cases he'
          rcases herror e hbefore with ⟨front, d, back, key, value, rfl, hrest⟩
          exact ⟨front, d, back ++ [c], key, value, by simp, hrest⟩
      | ok stage =>
          rcases stage with ⟨before, m⟩
          rcases hok before m hbefore with ⟨haccept, hgrown⟩
          rw [ok_bind]
          rcases @nextStage_outcome clock before start data₀ calls hgrown hgiven hdata₀ haccept m
            c with ⟨cmd, n, hnext, hgood⟩ | ⟨key, value, hentry, hbad, hnext⟩
          · rw [hnext]
            refine ⟨fun cmd' n' hcmd => ?_, fun e he => by cases he⟩
            cases hcmd
            exact hgood
          · rw [hnext]
            refine ⟨fun cmd n hcmd => (by cases hcmd), fun e he => ?_⟩
            cases he
            exact ⟨calls, c, [], key, value, rfl, hentry, haccept, hbad, rfl⟩

/-- A recipe that fails goes on failing, with the same error, whenever the clock is read and
whatever calls follow. -/
theorem recipe_refused (hinit : init.payload = some start) (hwf : WellFormed start)
    (hdata : DataOf start data₀) (hnodup : (data₀.map Prod.fst).Nodup) (hdata₀ : AllDefined data₀)
    (hcalls : AllDefined (calls.flatMap Call.entries)) {e : Thrown}
    (h : recipe clock init reads calls = .error e) (later : Nat) (more : List Call) :
    recipe clock init later (calls ++ more) = .error e := by
  have houtcome (k : Nat) :=
    @recipe_outcome clock init k start data₀ calls hinit hwf hdata hnodup hdata₀ hcalls
  rcases (houtcome reads).2 e h with ⟨front, c, rest, key, value, hsplit, hentry, hgood, hbad, rfl⟩
  rw [recipe_append]
  cases hlater : recipe clock init later calls with
  | ok stage =>
      have haccept := ((houtcome later).1 stage.1 stage.2 hlater).1
      rw [hsplit] at haccept
      exact absurd haccept (not_acceptable_later hentry hbad rest)
  | error e' =>
      rcases (houtcome later).2 e' hlater with
        ⟨front', c', rest', key', value', hsplit', hentry', hgood', hbad', rfl⟩
      rw [first_refused_unique (hsplit.symm.trans hsplit') hentry hentry' hgood hbad hgood' hbad']
      rfl

end Growth

end Client
end StoaCore
