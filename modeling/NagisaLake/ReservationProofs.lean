import Mathlib.Data.Finset.Card

/-! # Reservations — admission on the strength of old reports

A server hands jobs to a worker of limited capacity.  It sees the worker
through reports, each of which is out of date when it arrives, and charges
a reservation for every job it cannot expect the last report to show.

The book keeps the sets such an argument is about.  It is sound as long as
a reservation is only dropped once nothing depends on it: then a job on
its way finds room (`Sound.room`). -/

namespace Reservations

open List

variable {J : Type} [DecidableEq J]

/-- What is running, what was ever taken up, what is charged, what is on its
    way, and what was running when the reports were made: the one in force
    first, then those on their way, in order. -/
structure Book (J : Type) where
  running : Finset J
  seen : Finset J
  charged : Finset J
  flying : Finset J
  reports : List (Finset J)

/-- The report does not show the job, or the worker is still to get it: all
    that stands for it is its reservation. -/
def Book.InNeed (b : Book J) (report : Finset J) (j : J) : Prop :=
  j ∈ b.running ∧ j ∉ report ∨ j ∈ b.flying ∧ j ∉ b.seen

structure Sound (capacity : Nat) (b : Book J) : Prop where
  running_seen : b.running ⊆ b.seen
  reports_seen : ∀ R ∈ b.reports, R ⊆ b.seen
  fits : (b.running ∪ b.charged).card ≤ capacity
  fresh : ∀ j ∈ b.flying, j ∉ b.seen → j ∈ b.charged
  covered : ∀ R ∈ b.reports, ∀ j ∈ b.running, j ∈ R ∨ j ∈ b.charged
  /-- A job that is still running is in every report after its first. -/
  chain : b.reports.Pairwise fun R R' => ∀ j ∈ b.running, j ∈ R → j ∈ R'

variable {capacity : Nat} {b : Book J} {j : J} {R : Finset J}

section

variable (hs : Sound capacity b)
include hs

/-- **ROOM** for every job that is on its way. -/
theorem Sound.room (hj : j ∈ b.flying) (hnew : j ∉ b.seen) : b.running.card < capacity := by
  have hnot : j ∉ b.running := fun hrun => hnew (hs.running_seen hrun)
  have hsub : insert j b.running ⊆ b.running ∪ b.charged := by
    intro i hi
    rcases Finset.mem_insert.mp hi with rfl | hi
    · exact Finset.mem_union_right _ (hs.fresh i hj hnew)
    · exact Finset.mem_union_left _ hi
  calc b.running.card < (insert j b.running).card := by
        rw [Finset.card_insert_of_notMem hnot]
        exact Nat.lt_succ_self _
    _ ≤ (b.running ∪ b.charged).card := Finset.card_le_card hsub
    _ ≤ capacity := hs.fits

/-- A report and the charges bound what is running or reserved. -/
theorem Sound.card_le (hR : R ∈ b.reports) :
    (b.running ∪ b.charged).card ≤ R.card + b.charged.card := by
  have hsub : b.running ∪ b.charged ⊆ R ∪ b.charged := by
    intro i hi
    rcases Finset.mem_union.mp hi with hi | hi
    · exact Finset.mem_union.mpr (hs.covered R hR i hi)
    · exact Finset.mem_union_right _ hi
  exact (Finset.card_le_card hsub).trans (Finset.card_union_le _ _)

/-- A new reservation, where there is room for one. -/
theorem Sound.charge (hroom : (b.running ∪ b.charged).card < capacity) (j : J) :
    Sound capacity { b with charged := insert j b.charged } :=
  { hs with
    fits := by
      rw [Finset.union_insert]
      exact (Finset.card_insert_le _ _).trans hroom
    fresh i hi hnew := Finset.mem_insert_of_mem (hs.fresh i hi hnew)
    covered R hR i hi :=
      (hs.covered R hR i hi).imp_right Finset.mem_insert_of_mem }

/-- What is put on its way is charged, is on its way already, or is known. -/
theorem Sound.fly {flying : Finset J}
    (hfly : ∀ i ∈ flying, i ∉ b.seen → i ∈ b.flying ∨ i ∈ b.charged) :
    Sound capacity { b with flying := flying } :=
  { hs with
    fresh := by
      intro i hi hnew
      rcases hfly i hi hnew with hold | hcharged
      · exact hs.fresh i hold hnew
      · exact hcharged }

/-- Jobs finish. -/
theorem Sound.finish {running : Finset J} (hrun : running ⊆ b.running) :
    Sound capacity { b with running := running } :=
  { hs with
    running_seen := hrun.trans hs.running_seen
    fits := (Finset.card_le_card (Finset.union_subset_union_left hrun)).trans hs.fits
    covered R hR i hi := hs.covered R hR i (hrun hi)
    chain := hs.chain.imp fun himp i hi => himp i (hrun hi) }

/-- A job arrives and is taken up. -/
theorem Sound.take (hj : j ∈ b.flying) (hnew : j ∉ b.seen) : Sound capacity { b with
      running := insert j b.running, seen := insert j b.seen } where
  running_seen := Finset.insert_subset_insert j hs.running_seen
  reports_seen R hR := (hs.reports_seen R hR).trans (Finset.subset_insert ..)
  fits := by
    rw [Finset.insert_union, Finset.insert_eq_of_mem
      (Finset.mem_union_right _ (hs.fresh j hj hnew))]
    exact hs.fits
  fresh i hi hi' := hs.fresh i hi fun hold =>
    hi' (Finset.mem_insert_of_mem hold)
  covered R hR i hi := by
    rcases Finset.mem_insert.mp hi with rfl | hi
    · exact .inr (hs.fresh i hj hnew)
    · exact hs.covered R hR i hi
  chain := by
    refine (List.Pairwise.and_mem.mp hs.chain).imp ?_
    rintro R R' ⟨hR, -, himp⟩ i hi hiR
    rcases Finset.mem_insert.mp hi with rfl | hi
    -- a job that is new is in no report
    · exact absurd (hs.reports_seen R hR hiR) hnew
    · exact himp i hi hiR

/-- The worker makes a report. -/
theorem Sound.report : Sound capacity { b with reports := b.reports ++ [b.running] } := { hs with
  reports_seen R hR := by
    rcases mem_append.mp hR with hR | hR
    · exact hs.reports_seen R hR
    · rw [mem_singleton.mp hR]
      exact hs.running_seen
  covered R hR i hi := by
    rcases mem_append.mp hR with hR | hR
    · exact hs.covered R hR i hi
    · rw [mem_singleton.mp hR]
      exact .inl hi
  chain := by
    refine pairwise_append.mpr ⟨hs.chain, pairwise_singleton .., ?_⟩
    intro R _ R' hR' i hi _
    rw [mem_singleton.mp hR']
    exact hi }

/-- The next report comes into force. -/
theorem Sound.tail {rest : List (Finset J)} (hrest : b.reports = R :: rest) :
    Sound capacity { b with reports := rest } :=
  { hs with
    reports_seen R' hR' := hs.reports_seen R' (hrest ▸ mem_cons_of_mem _ hR')
    covered R' hR' := hs.covered R' (hrest ▸ mem_cons_of_mem _ hR')
    chain := by
      have hchain := hs.chain
      rw [hrest] at hchain
      exact hchain.of_cons }

/-- Reservations are dropped, but of no job in need of one. -/
theorem Sound.drop {rest : List (Finset J)}
    {charged : Finset J} (hrest : b.reports = R :: rest)
    (hsub : charged ⊆ b.charged)
    (hneed : ∀ i ∈ b.charged, b.InNeed R i → i ∈ charged) :
    Sound capacity { b with charged := charged } :=
  { hs with
    fits := (Finset.card_le_card (Finset.union_subset_union_right hsub)).trans hs.fits
    fresh i hi hnew := hneed i (hs.fresh i hi hnew) (.inr ⟨hi, hnew⟩)
    covered R' hR' i hi := by
      rcases hs.covered R' hR' i hi with hin | hcharged
      · exact .inl hin
      by_cases hiR : i ∈ R
      -- shown by the report in force, and so by all that follow
      · have hchain := hs.chain
        rw [hrest] at hchain hR'
        rcases mem_cons.mp hR' with rfl | hR'
        · exact .inl hiR
        · exact .inl ((pairwise_cons.mp hchain).1 R' hR' i hi hiR)
      · exact .inr (hneed i hcharged (.inl ⟨hi, hiR⟩)) }

end

end Reservations
