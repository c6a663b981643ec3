import StakeLedger.Proofs.Desk.Page

/-!
# Listings at any height

A ledger takes delegations at any height that fits in its column, and the cursors of a
listing hold those that are not negative.  The key of a page is never refused, whatever
desk gave it.  A listing fails only where a page would have to lead on from a delegation
at a negative height, and where a delegation cannot be read.

Main definitions:

- {lit}`Desk.Returned`: the texts that desks answer with as keys of pages.

Main results:

- Theorem {lit}`Desk.Returned.exists_whole`: the key of a page stands for a cursor.
- Theorem {lit}`Desk.ask_returned_exact`: the page for a key that was returned, at any heights.
-/

namespace StakeLedger.Desk

variable {desk : Desk} {history : List Ledger.Access} {staker key text : String}

/-- A text that some desk answered some query with as the key of a page. -/
def Returned (text : String) : Prop :=
  ∃ (desk : Desk) (clock : Int) (request : String) (q : Query) (page : Page),
    (desk.ask clock request q).1.result = .ok (.page page) ∧ page.nextKey = text

/-- A key that was returned stands for a cursor. -/
theorem Returned.exists_whole (h : Returned text) :
    ∃ c : Cursor, c.Whole ∧ Cursor.ofKey? text = some c := by
  rcases h with ⟨desk, clock, request, q, page, hresult, rfl⟩
  have hkey := @Query.exists_key_of_run (desk.setting clock) q page hresult
  rcases hkey with ⟨c, hwhole, hc⟩
  refine ⟨c, hwhole, ?_⟩
  rw [hc]
  exact hwhole.ofKey?_key

/-- After any history, an open desk answers a request with the empty key or with one that was
returned by any desk with the first page of the staker's delegations behind its cursor.  Only if
that page cannot lead on, because it ends at a negative height with others behind it, the
request fails with the fault of the cursor; and if a delegation that is read for the page cannot
be read, it fails with the fault of that. -/
theorem ask_returned_exact (hledger : desk.ledger = Ledger.empty.run history)
    (hopen : desk.ledger.isOpen = true)
    (hlow : 1 ≤ desk.pageSize) (hhigh : desk.pageSize ≤ 2 ^ 63 - 2)
    (hkey : PublicKey.normalize staker = .ok key) (htext : text = "" ∨ Returned text)
    (clock : Int) (request : String) :
    ∃ c candidates, Cursor.ofKey? text = some c ∧
      candidates.Pairwise Delegation.Precedes ∧
      (∀ d, d ∈ candidates ↔ (Catalog.run history).saved d.txHash = some d ∧ d.staker = key ∧
        c.admits (Ledger.Row.ofDelegation d) = true) ∧
      (Page.Legible desk.pageSize.toNat candidates →
        ¬Page.Blocked desk.pageSize.toNat candidates → ∃ page,
          (desk.ask clock request (.listDelegations staker text)).1.result = .ok (.page page) ∧
          page.IsFirst desk.pageSize.toNat candidates) ∧
      (Page.Legible desk.pageSize.toNat candidates →
        Page.Blocked desk.pageSize.toNat candidates →
          (desk.ask clock request (.listDelegations staker text)).1.result =
            .error (.storage .listDelegations Ledger.noCursor)) ∧
      (¬Page.Legible desk.pageSize.toNat candidates →
        (desk.ask clock request (.listDelegations staker text)).1.result =
          .error (.storage .listDelegations Ledger.illegible)) := by
  have hcursor : ∃ c, Cursor.ofKey? text = some c := by
    rcases htext with rfl | hreturned
    · exact ⟨.start, Cursor.ofKey?_empty⟩
    · rcases hreturned.exists_whole with ⟨c, -, hc⟩
      exact ⟨c, hc⟩
  rcases hcursor with ⟨c, hc⟩
  rcases ask_of_place hledger hopen hlow hhigh hkey hc clock request with ⟨candidates, hanswer⟩
  exact ⟨c, candidates, hc, hanswer⟩

/-! ## Two delegations at a negative height -/

/-- The saves of two delegations of a staker at one negative height. -/
def negativeSaves : List Ledger.Access :=
  [.save (single "a" (-1)), .save (single "b" (-1))]

/-- What is listed after these saves, from the start. -/
theorem eq_of_negativeSaves {candidates : List Delegation}
    (hordered : candidates.Pairwise Delegation.Precedes)
    (hmem : ∀ d, d ∈ candidates ↔ (Catalog.run negativeSaves).saved d.txHash = some d ∧
      d.staker = (single "a" (-1)).staker ∧
        Cursor.start.admits (Ledger.Row.ofDelegation d) = true) :
    candidates = [single "b" (-1), single "a" (-1)] := by
  have hsaved (hash : String) : (Catalog.run negativeSaves).saved hash =
      if hash = "b" then some (single "b" (-1))
        else if hash = "a" then some (single "a" (-1)) else none := by
    have hfits : (single "a" (-1)).fits = true ∧ (single "b" (-1)).fits = true := by
      decide
    have hhash : (single "a" (-1)).txHash = "a" ∧ (single "b" (-1)).txHash = "b" := ⟨rfl, rfl⟩
    simp [negativeSaves, Catalog.run, Catalog.after, hfits, hhash, Function.update_apply]
  refine hordered.eq_of_mem_iff (List.pairwise_pair.mpr (Or.inr ⟨rfl, by decide⟩)) ?_
  intro d
  rw [hmem, hsaved, List.mem_pair]
  constructor
  · rintro ⟨hd, -, -⟩
    split_ifs at hd
    · exact Or.inl (Option.some.inj hd).symm
    · exact Or.inr (Option.some.inj hd).symm
  · rintro (rfl | rfl)
    · exact ⟨rfl, rfl, Cursor.admits_start _⟩
    · exact ⟨rfl, rfl, Cursor.admits_start _⟩

/-- A desk for pages of so many, after these saves. -/
def negativeDesk (pageSize : Int) : Desk :=
  ⟨Ledger.empty.run negativeSaves, .mainnet, pageSize, {}⟩

/-- A page of two shows both of them. -/
theorem ask_returned_exact_negative :
    ∃ page, ((negativeDesk 2).ask 0 "" (.listDelegations (single "a" (-1)).staker "")).1.result =
        .ok (.page page) ∧
      page.IsFirst 2 [single "b" (-1), single "a" (-1)] := by
  have hkey : PublicKey.normalize (single "a" (-1)).staker = .ok (single "a" (-1)).staker := by
    decide
  have hledger : (negativeDesk 2).ledger = Ledger.empty.run negativeSaves := rfl
  rcases ask_returned_exact hledger rfl (by decide) (by decide) hkey (Or.inl rfl) 0 "" with
    ⟨c, candidates, hcursor, hordered, hmem, hgiven, -⟩
  rw [Cursor.ofKey?_empty, Option.some.injEq] at hcursor
  subst hcursor
  have hboth := eq_of_negativeSaves hordered hmem
  subst hboth
  exact hgiven (by decide) fun hblocked => absurd hblocked.1 (by decide)

/-- Both were saved, but pages of one cannot lead from the first of them to the second. -/
theorem not_listed_negative :
    [single "a" (-1), single "b" (-1)].foldlM Ledger.save Ledger.empty =
        .ok (Ledger.empty.run negativeSaves) ∧
      ((negativeDesk 1).ask 0 "" (.listDelegations (single "a" (-1)).staker "")).1.result =
        .error (.storage .listDelegations Ledger.noCursor) := by
  refine ⟨rfl, ?_⟩
  have hkey : PublicKey.normalize (single "a" (-1)).staker = .ok (single "a" (-1)).staker := by
    decide
  have hledger : (negativeDesk 1).ledger = Ledger.empty.run negativeSaves := rfl
  rcases ask_of_place hledger rfl (by decide) (by decide) hkey Cursor.ofKey?_empty 0 "" with
    ⟨candidates, hordered, hmem, -, hfails, -⟩
  have hboth := eq_of_negativeSaves hordered hmem
  subst hboth
  exact hfails (by decide) ⟨by decide, single "b" (-1), rfl, by decide⟩

end StakeLedger.Desk
