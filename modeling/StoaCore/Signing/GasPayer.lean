import StoaCore.Signing.KeySelection

/-!
# GasPayer — when a codex key is left to pay for gas

Every guard takes its keys greedily: the first available ones, codex keys before pre-resolved
foreign ones, whatever the other guards take and whoever pays.  That choice decides whether a key
is left.  Another choice may leave one where the greedy choice does not; for a single guard and a
choice of codex keys it cannot.
-/

namespace StoaCore
namespace Signing

open Library.Js
open Library.Traced
open Guard

/-! ## Choices of keys -/

section Choices

variable (fl : Rounding) (codexPubs : StringSet) (resolvedForeignKeys : Record JsString)

/-- As many distinct keys of the guard as its threshold, each of which can sign. -/
structure IsChoice (guard : Keyset) (pubs : List JsString) : Prop where
  nodup : pubs.Nodup
  keys : ∀ pub ∈ pubs, pub ∈ guard.keys
  usable : ∀ pub ∈ pubs, Usable codexPubs resolvedForeignKeys pub
  enough : guardThreshold fl guard = some pubs.length

/-- Some choice for each guard leaves a codex key to pay. -/
def Solvable (guards : List Keyset) : Prop :=
  ∃ choices, List.Forall₂ (IsChoice fl codexPubs resolvedForeignKeys) guards choices ∧
    ∃ pub, codexPubs.has pub = true ∧ ∀ pubs ∈ choices, pub ∉ pubs

/-- The greedy choice leaves a codex key to pay. -/
def GreedyLeavesKey (guards : List Keyset) : Prop :=
  ∃ pub, codexPubs.has pub = true ∧
    ∀ guard ∈ guards, pub ∉ takenKeys fl codexPubs resolvedForeignKeys guard

/-- A guard takes no more keys than its threshold. -/
theorem length_takenKeys_le {guard : Keyset} {t : Nat}
    (ht : guardThreshold fl guard = some t) :
    (takenKeys fl codexPubs resolvedForeignKeys guard).length ≤ t := by
  rw [takenKeys_eq, ht]
  exact List.length_take_le t _

/-- For one guard, a choice of codex keys that leaves a codex key shows that the greedy choice
leaves one too: both take at most the threshold. -/
theorem greedyLeavesKey_of_codex_choice {guard : Keyset} {pubs : List JsString}
    (hchoice : IsChoice fl codexPubs resolvedForeignKeys guard pubs)
    (hcodex : ∀ pub ∈ pubs, codexPubs.has pub = true) {free : JsString}
    (hfree : codexPubs.has free = true) (hnot : free ∉ pubs) :
    GreedyLeavesKey fl codexPubs resolvedForeignKeys [guard] := by
  by_contra hnone
  -- Otherwise the guard takes the whole codex.
  have hall : codexPubs.elements ⊆ takenKeys fl codexPubs resolvedForeignKeys guard := by
    intro pub hpub
    by_contra htaken
    refine hnone ⟨pub, (StringSet.has_iff _ _).2 hpub, ?_⟩
    intro g hg
    rwa [List.mem_singleton.1 hg]
  have hmore : (free :: pubs) ⊆ codexPubs.elements := by
    intro pub hpub
    rcases List.mem_cons.1 hpub with rfl | hpub
    · exact (StringSet.has_iff _ _).1 hfree
    · exact (StringSet.has_iff _ _).1 (hcodex pub hpub)
  have hnodup : (free :: pubs).Nodup := List.nodup_cons.2 ⟨hnot, hchoice.nodup⟩
  have hlength : pubs.length + 1 ≤ pubs.length :=
    calc pubs.length + 1
        = (free :: pubs).length := rfl
      _ ≤ codexPubs.elements.length := (hnodup.subperm hmore).length_le
      _ ≤ (takenKeys fl codexPubs resolvedForeignKeys guard).length :=
          (codexPubs.nodup.subperm hall).length_le
      _ ≤ pubs.length := length_takenKeys_le fl codexPubs resolvedForeignKeys hchoice.enough
  omega

end Choices

/-! ## The greedy choice decides -/

section Exact

variable {σ : Type} {S : Strategy σ} {args : ExecuteArgs σ} {w w' : σ} {codexPubs : StringSet}

theorem not_rejectsGasPayer_of_greedy
    (hlist : Async.runIn S.resolver.listCodexPubs w = (.ok codexPubs, w'))
    (hcodex : codexPubs.has [] = false)
    (h : GreedyLeavesKey S.environment.arithmetic codexPubs args.resolvedForeignKeys
      args.guards) : ¬ S.RejectsGasPayer args w := by
  rcases h with ⟨pub, hpub, hfree⟩
  rw [Strategy.rejectsGasPayer_iff hlist]
  rintro ⟨-, hnone⟩
  apply hnone
  refine canPay_of_free hpub ?_ hcodex
  apply eq_false_of_ne_true
  intro hselected
  rcases (mem_selectedPubs _ _ _).1 ((StringSet.has_iff _ _).1 hselected) with
    ⟨guard, hguard, htaken⟩
  exact hfree guard hguard htaken

/-- In a codex without the empty text, `execute` does not reject for want of a gas key if the
greedy choice leaves a codex key, nor if there is one guard and some choice of codex keys for it
leaves one.  It does reject whenever it gets as far as choosing a gas key and neither the payment
key nor the first codex key that the greedy choice leaves can pay. -/
theorem gas_payer_complete
    (hlist : Async.runIn S.resolver.listCodexPubs w = (.ok codexPubs, w')) :
    (codexPubs.has [] = false →
      GreedyLeavesKey S.environment.arithmetic codexPubs args.resolvedForeignKeys args.guards →
        ¬ S.RejectsGasPayer args w) ∧
    (codexPubs.has [] = false → ∀ guard, args.guards = [guard] → ∀ pubs,
      IsChoice S.environment.arithmetic codexPubs args.resolvedForeignKeys guard pubs →
        (∀ pub ∈ pubs, codexPubs.has pub = true) →
          (∃ pub, codexPubs.has pub = true ∧ pub ∉ pubs) → ¬ S.RejectsGasPayer args w) ∧
    (S.RejectsGasPayer args w ↔
      (∃ c t, run (S.untilCollected args codexPubs) { world := w', events := [] } = (.ok c, t)) ∧
        ¬ CanPay args.paymentKey codexPubs (S.selected args codexPubs)) := by
  refine ⟨?_, ?_, Strategy.rejectsGasPayer_iff hlist⟩
  · exact fun hcodex hgreedy => not_rejectsGasPayer_of_greedy hlist hcodex hgreedy
  · rintro hcodex guard hguards pubs hchoice hpubs ⟨free, hfree, hnot⟩
    refine not_rejectsGasPayer_of_greedy hlist hcodex ?_
    rw [hguards]
    exact greedyLeavesKey_of_codex_choice _ _ _ hchoice hpubs hfree hnot

end Exact

/-! ## A guard that could have spared the codex key -/

def loneCodex : StringSet := ⟨[codexKey], by decide⟩

/-- The codex has one key, and a foreign key has been resolved beforehand. -/
def loneStrategy : Strategy Unit :=
  { serverStrategy with
    resolver :=
      { listCodexPubs := pure loneCodex
        getKeyPairByPublicKey := fun pub => pure { publicKey := pub, privateKey := js "00" } } }

/-- Either key would do for the guard, and the greedy choice takes the codex key. -/
def eitherKey : ExecuteArgs Unit where
  build := fun _ => pure { cmd := js "\x7b\x7d", hash := [], sigs := [] }
  guards := [{ pred := js "keys-any", keys := [codexKey, foreignKey] }]
  paymentKey := some codexKey
  resolvedForeignKeys := [(foreignKey, js "5b")]

/-- Either of two codex keys would do for the guard. -/
def eitherCodexKey : ExecuteArgs Unit where
  build := fun _ => pure { cmd := js "\x7b\x7d", hash := [], sigs := [] }
  guards := [{ pred := js "keys-any", keys := [spareKey, codexKey] }]

/-- With a second key in the codex the greedy choice leaves that one; of two codex keys it takes the
first, and the choice of the second shows that it leaves one.  The lone codex key is stranded. -/
theorem gas_payer_complete_eitherKey :
    ¬ serverStrategy.RejectsGasPayer eitherKey () ∧
    (IsChoice serverStrategy.environment.arithmetic smallCodex eitherCodexKey.resolvedForeignKeys
      { pred := js "keys-any", keys := [spareKey, codexKey] } [codexKey] ∧
        ¬ serverStrategy.RejectsGasPayer eitherCodexKey ()) ∧
    (loneStrategy.RejectsGasPayer eitherKey () ↔
      (∃ c t, run (loneStrategy.untilCollected eitherKey loneCodex)
        { world := (), events := [] } = (.ok c, t)) ∧
        ¬ CanPay eitherKey.paymentKey loneCodex (loneStrategy.selected eitherKey loneCodex)) := by
  have hgreedy : GreedyLeavesKey serverStrategy.environment.arithmetic smallCodex
      eitherKey.resolvedForeignKeys eitherKey.guards :=
    ⟨spareKey, by decide, by decide +kernel⟩
  have hchoice : IsChoice serverStrategy.environment.arithmetic smallCodex
      eitherCodexKey.resolvedForeignKeys { pred := js "keys-any", keys := [spareKey, codexKey] }
      [codexKey] :=
    ⟨by decide, by decide, by decide +kernel, by decide +kernel⟩
  refine ⟨(gas_payer_complete rfl).1 (by decide) hgreedy, ⟨hchoice, ?_⟩,
    (gas_payer_complete rfl).2.2⟩
  exact (gas_payer_complete rfl).2.1 (by decide) _ rfl [codexKey] hchoice (by decide)
    ⟨spareKey, by decide, by decide⟩

/-- The foreign key alone is a choice that leaves the codex key, and `execute` rejects all the
same. -/
theorem greedy_strands_solvable :
    Async.runIn loneStrategy.resolver.listCodexPubs () = (.ok loneCodex, ()) ∧
      Solvable loneStrategy.environment.arithmetic loneCodex eitherKey.resolvedForeignKeys
        eitherKey.guards ∧
      loneStrategy.RejectsGasPayer eitherKey () := by
  refine ⟨rfl, ?_, ?_⟩
  · refine ⟨[[foreignKey]], List.Forall₂.cons ?_ .nil, codexKey, by decide, by decide⟩
    exact ⟨by decide, by decide, by decide +kernel, by decide +kernel⟩
  · refine (Strategy.rejectsGasPayer_iff rfl).2 ⟨⟨_, _, rfl⟩, ?_⟩
    rintro ⟨key, -, hkey⟩
    have hnone : (selectCapsSigningKey eitherKey.paymentKey loneCodex
        (loneStrategy.selected eitherKey loneCodex)).key = none := by
      decide +kernel
    rw [hnone] at hkey
    cases hkey

end Signing
end StoaCore
