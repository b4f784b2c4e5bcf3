import Mathlib

namespace AckLedger

-- Deliveries to a far end over a network: those that are owed, those decoded
-- there, those whose acknowledgement came back, and what is under way for them.
structure Ledger (κ : Type*) where
  owed : Set κ
  decoded : Set κ
  acked : Set κ
  copies : Set κ
  acks : Set κ
  lost : Prop

-- A step of any such protocol. Nothing is acknowledged without an ACK under way,
-- no ACK goes out without a decoded copy; and as long as nothing is lost, a copy
-- ends in an ACK and an ACK in a mark.
structure Ledger.Step (before after : Ledger κ) : Prop where
  kept : before.acked ⊆ after.acked
  remembered : before.decoded ⊆ after.decoded
  marked : after.acked ⊆ before.acked ∪ before.acks
  answered : after.acks ⊆ before.acks ∪ after.decoded
  lossy : before.lost → after.lost
  sent : ¬after.lost → after.owed ⊆ before.owed ∪ after.copies
  delivered : ¬after.lost → before.copies ⊆ after.copies ∪ after.acks
  acknowledged : ¬after.lost → before.acks ⊆ after.acks ∪ after.acked

structure Ledger.Sound (ledger : Ledger κ) : Prop where
  acked : ledger.acked ⊆ ledger.decoded
  acks : ledger.acks ⊆ ledger.decoded
  covered : ¬ledger.lost → ledger.owed ⊆ ledger.copies ∪ ledger.acks ∪ ledger.acked

theorem Ledger.Step.refl (ledger : Ledger κ) : ledger.Step ledger where
  kept := subset_rfl
  remembered := subset_rfl
  marked := Set.subset_union_left
  answered := Set.subset_union_left
  lossy := id
  sent _ := Set.subset_union_left
  delivered _ := Set.subset_union_left
  acknowledged _ := Set.subset_union_left

theorem Ledger.Step.sound {before after : Ledger κ} (step : before.Step after) (sound : before.Sound) : after.Sound where
  acked := by
    intro k acked
    rcases step.marked acked with old | ack
    · exact step.remembered (sound.acked old)
    · exact step.remembered (sound.acks ack)
  acks := by
    intro k ack
    rcases step.answered ack with old | decoded
    · exact step.remembered (sound.acks old)
    · exact decoded
  covered := by
    intro whole k owed
    rcases step.sent whole owed with old | copy
    · rcases sound.covered (fun lost => whole (step.lossy lost)) old with (copy | ack) | acked
      · exact .inl (step.delivered whole copy)
      · rcases step.acknowledged whole ack with ack | acked
        · exact .inl (.inr ack)
        · exact .inr acked
      · exact .inr (step.kept acked)
    · exact .inl (.inl copy)

theorem Ledger.Sound.settled {ledger : Ledger κ} (sound : ledger.Sound) (whole : ¬ledger.lost)
    (copies : ledger.copies = ∅) (acks : ledger.acks = ∅) : ledger.owed ⊆ ledger.acked := by
  intro k owed
  rcases sound.covered whole owed with (copy | ack) | acked
  · rw [copies] at copy; cases copy
  · rw [acks] at ack; cases ack
  · exact acked

end AckLedger
