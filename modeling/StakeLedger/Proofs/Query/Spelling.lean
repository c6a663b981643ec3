import StakeLedger.Desk
import StakeLedger.Proofs.Key.Spelling

/-!
# Queries in either case

A query names a staker, a provider or a transaction by a key or a hash, and looks at nothing but
what is read of it.  So over any ledger, whether it is open, closed or damaged, the case of the
letters of a key or a hash does not matter: the answer or the fault is the same, and so are the
lines in the journal and what is accounted for.

Main definitions:

- {lit}`Query.Recased`: queries that differ by the case of letters alone.

Main results:

- Theorem {lit}`Query.run_recased`: such queries have one outcome.
- Theorem {lit}`Desk.identifiers_exact`: which keys and hashes are read, as what, and that no desk
  looks at their case.
-/

namespace StakeLedger

namespace Query

/-- Queries that differ, if at all, by the case of letters in the key or the hash that they name.
Pagination keys and addresses are not of that kind. -/
inductive Recased : Query → Query → Prop where
  | listDelegations {a b : String} (h : Hex.SameLetters a b) (paginationKey : String) :
      Recased (.listDelegations a paginationKey) (.listDelegations b paginationKey)
  | countStakers {a b : String} (h : Hex.SameLetters a b) :
      Recased (.countStakers a) (.countStakers b)
  | countProviderDelegations {a b : String} (h : Hex.SameLetters a b) :
      Recased (.countProviderDelegations a) (.countProviderDelegations b)
  | countStakerDelegations {a b : String} (h : Hex.SameLetters a b) :
      Recased (.countStakerDelegations a) (.countStakerDelegations b)
  | findDelegation {a b : String} (h : Hex.SameLetters a b) :
      Recased (.findDelegation a) (.findDelegation b)

section

variable {a b : String} (h : Hex.SameLetters a b) (env : Setting)

include h

/-- A listing does not look at the case of a key. -/
theorem listing_recased (paginationKey : String) :
    listing env a paginationKey = listing env b paginationKey := by
  rw [listing, listing, PublicKey.reads.recased a b h]

/-- A tally over a provider does not look at the case of its key. -/
theorem overProvider_recased (op : Operation) (tally : List Delegation → Nat) :
    overProvider op tally env a = overProvider op tally env b := by
  rw [overProvider, overProvider, PublicKey.reads.recased a b h]

/-- A tally over a staker does not look at the case of its key. -/
theorem overStaker_recased (op : Operation) (tally : List Delegation → Nat) :
    overStaker op tally env a = overStaker op tally env b := by
  rw [overStaker, overStaker, PublicKey.reads.recased a b h]

/-- A look-up does not look at the case of a hash. -/
theorem lookup_recased : lookup env a = lookup env b := by
  rw [lookup, lookup, TxHash.reads.recased a b h]

end

/-- Queries that differ by the case of letters alone have one outcome, whatever they are asked
of. -/
theorem run_recased {q other : Query} (h : q.Recased other) (env : Setting) :
    q.run env = other.run env := by
  cases h with
  | listDelegations h paginationKey => exact listing_recased h env paginationKey
  | countStakers h => exact overProvider_recased h env _ _
  | countProviderDelegations h => exact overProvider_recased h env _ _
  | countStakerDelegations h => exact overStaker_recased h env _ _
  | findDelegation h => exact lookup_recased h env

/-- Queries that differ by the case of letters alone are of one operation. -/
theorem operation_recased {q other : Query} (h : q.Recased other) :
    q.operation = other.operation := by
  cases h <;> rfl

end Query

namespace Desk

/-- A desk does not tell queries apart that differ by the case of letters alone. -/
theorem ask_recased {q other : Query} (h : q.Recased other) (desk : Desk) (clock : Int)
    (request : String) : desk.ask clock request q = desk.ask clock request other := by
  rw [ask, ask, outcome, outcome, Query.run_recased h, Query.operation_recased h]

/-- A key is read from sixty-six hexadecimal digits of either case and from no other text.  What is
read of it is that text in lower case, which stays as it is if its octets are read and written, even
by a reader that would pass over blanks.  A hash is read alike from sixty-four digits.  So whatever
a desk has for a ledger, and whether it answers or not, it does not tell queries apart that differ
by the case of letters in a key or a hash alone. -/
theorem identifiers_exact :
    Hex.Reads 66 PublicKey.normalize ∧
      (∀ text octets, PublicKey.parse text = .ok octets ↔
        Hex.IsDigits 66 text ∧ Hex.text octets = Hex.lowered text) ∧
      (∀ text, Hex.IsDigits 66 text →
        (Hex.decodeSpaced? (Hex.lowered text).toList).map Hex.text = some (Hex.lowered text)) ∧
      Hex.Reads 64 TxHash.normalize ∧
      ∀ (desk : Desk) (clock : Int) (request : String) (q other : Query), q.Recased other →
        desk.ask clock request q = desk.ask clock request other := by
  refine ⟨PublicKey.reads, PublicKey.parse_eq_ok_iff_text, ?_, TxHash.reads, ?_⟩
  · intro text hdigits
    exact Hex.decodeSpaced?_lowered (n := 33) hdigits
  · intro desk clock request q other hrecased
    exact ask_recased hrecased desk clock request

/-- A key of one letter, again and again. -/
def keyOf (letter : Char) : String :=
  String.ofList (List.replicate 66 letter)

/-- A key in capitals is read as the one in small letters, and over a closed ledger both get the
same fault. -/
theorem identifiers_exact_capitals :
    Hex.IsDigits 66 (keyOf 'A') ∧ Hex.SameLetters (keyOf 'A') (keyOf 'a') ∧
      PublicKey.normalize (keyOf 'A') = .ok (keyOf 'a') ∧
      Desk.ask { ledger := { isOpen := false } } 0 "-" (.countStakers (keyOf 'A')) =
        Desk.ask { ledger := { isOpen := false } } 0 "-" (.countStakers (keyOf 'a')) := by
  have hlowered : Hex.lowered (keyOf 'A') = keyOf 'a' := by
    rw [Hex.lowered, keyOf, String.toList_ofList, List.map_replicate]
    rfl
  have hdigits : Hex.IsDigits 66 (keyOf 'A') := by
    constructor
    · rw [keyOf, String.toList_ofList, List.length_replicate]
    · intro c hc
      rw [keyOf, String.toList_ofList] at hc
      rw [List.eq_of_mem_replicate hc]
      decide
  have hsame : Hex.SameLetters (keyOf 'A') (keyOf 'a') := by
    rw [Hex.SameLetters, hlowered, Hex.lowered, keyOf, String.toList_ofList, List.map_replicate]
    rfl
  rcases identifiers_exact with ⟨hkeys, -, -, -, hdesk⟩
  refine ⟨hdigits, hsame, ?_, hdesk _ _ _ _ _ (.countStakers hsame)⟩
  rw [hkeys.accepts _ hdigits, hlowered]

end Desk

end StakeLedger
