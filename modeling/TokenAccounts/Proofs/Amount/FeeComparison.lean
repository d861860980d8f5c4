import TokenAccounts.Proofs.Amount.Withholding

/-!
# Comparing what is withheld

Rounding up makes shares subadditive: the share of an amount is at most the shares of any amounts
that cover it.  Main statements: splitting a transfer never lowers what is withheld in all, a larger
transfer never pays a lower fee, and at a rate of at most one whole it never delivers less.
-/

namespace TokenAccounts

namespace TransferFee

variable {fee : TransferFee} {less more first second whole withheld : UInt64}

/-! ## Shares -/

/-- The share of an amount is at most the shares of two amounts that cover it. -/
theorem share_le_add_share (covered : whole.toNat ≤ first.toNat + second.toNat) :
    fee.share whole ≤ fee.share first + fee.share second := by
  have shareOfFirst : first.toNat * fee.transferFeeBasisPoints.toNat ≤ 10000 * fee.share first :=
    share_le_iff.mp (Nat.le_refl _)
  have shareOfSecond :
      second.toNat * fee.transferFeeBasisPoints.toNat ≤ 10000 * fee.share second :=
    share_le_iff.mp (Nat.le_refl _)
  rw [share_le_iff]
  calc whole.toNat * fee.transferFeeBasisPoints.toNat
      ≤ (first.toNat + second.toNat) * fee.transferFeeBasisPoints.toNat :=
        Nat.mul_le_mul_right _ covered
    _ = first.toNat * fee.transferFeeBasisPoints.toNat +
          second.toNat * fee.transferFeeBasisPoints.toNat := Nat.add_mul _ _ _
    _ ≤ 10000 * fee.share first + 10000 * fee.share second :=
        Nat.add_le_add shareOfFirst shareOfSecond
    _ = 10000 * (fee.share first + fee.share second) := (Nat.mul_add _ _ _).symm

theorem share_mono (ordered : less ≤ more) : fee.share less ≤ fee.share more := by
  have covered : less.toNat ≤ more.toNat + (0 : UInt64).toNat := UInt64.le_iff_toNat_le.mp ordered
  calc fee.share less
      ≤ fee.share more + fee.share 0 := share_le_add_share covered
    _ = fee.share more := by rw [share_eq_zero (.inr rfl), Nat.add_zero]

/-- At a rate of at most one whole, the share grows by no more than the amount does. -/
theorem share_le_add_of_le (atMostAll : fee.transferFeeBasisPoints.toNat ≤ 10000)
    (ordered : less ≤ more) :
    fee.share more ≤ fee.share less + (more.toNat - less.toNat) := by
  have difference : (more - less).toNat = more.toNat - less.toNat :=
    UInt64.toNat_sub_of_le _ _ ordered
  have covered : more.toNat ≤ less.toNat + (more - less).toNat := by omega
  calc fee.share more
      ≤ fee.share less + fee.share (more - less) := share_le_add_share covered
    _ ≤ fee.share less + (more.toNat - less.toNat) :=
        Nat.add_le_add_left (difference ▸ share_le_amount atMostAll (more - less)) _

/-! ## Fees -/

/-- An amount has a fee if a larger one has, and the fee is no higher. -/
theorem exists_calculate_of_le (ordered : less ≤ more)
    (calculated : fee.calculate more = some withheld) :
    ∃ lower, fee.calculate less = some lower ∧ lower ≤ withheld := by
  rcases calculate_eq_some_iff.mp calculated with ⟨small, capped⟩
  have shares : fee.share less ≤ fee.share more := share_mono ordered
  rcases exists_calculate_of_share_lt (Nat.lt_of_le_of_lt shares small) with
    ⟨lower, lessHas, lessCapped⟩
  refine ⟨lower, lessHas, ?_⟩
  rw [UInt64.le_iff_toNat_le, lessCapped, capped]
  omega

/-- The parts of an amount that has a fee have fees, which make up at least the fee of the whole. -/
theorem exists_calculate_of_add_eq (parts : first.toNat + second.toNat = whole.toNat)
    (calculated : fee.calculate whole = some withheld) :
    ∃ ofFirst ofSecond, fee.calculate first = some ofFirst ∧
      fee.calculate second = some ofSecond ∧
      withheld.toNat ≤ ofFirst.toNat + ofSecond.toNat := by
  have firstOrdered : first ≤ whole := UInt64.le_iff_toNat_le.mpr (by omega)
  have secondOrdered : second ≤ whole := UInt64.le_iff_toNat_le.mpr (by omega)
  rcases exists_calculate_of_le firstOrdered calculated with ⟨ofFirst, firstHas, -⟩
  rcases exists_calculate_of_le secondOrdered calculated with ⟨ofSecond, secondHas, -⟩
  refine ⟨ofFirst, ofSecond, firstHas, secondHas, ?_⟩
  have shares : fee.share whole ≤ fee.share first + fee.share second :=
    share_le_add_share (Nat.le_of_eq parts.symm)
  rw [(calculate_eq_some_iff.mp calculated).2, (calculate_eq_some_iff.mp firstHas).2,
    (calculate_eq_some_iff.mp secondHas).2]
  -- If a part reaches the cap, its fee alone is that of the whole.
  omega

/-- So do any number of parts. -/
theorem exists_calculate_of_sum_eq {parts : List UInt64}
    (sum : (parts.map UInt64.toNat).sum = whole.toNat)
    (calculated : fee.calculate whole = some withheld) :
    ∃ ofParts, List.Forall₂ (fun part ofPart => fee.calculate part = some ofPart) parts ofParts ∧
      withheld.toNat ≤ (ofParts.map UInt64.toNat).sum := by
  induction parts generalizing whole withheld with
  | nil =>
      have nothing : whole = 0 := UInt64.toNat_inj.mp sum.symm
      subst nothing
      rw [calculate, if_pos (.inr rfl)] at calculated
      cases calculated
      exact ⟨[], .nil, Nat.le_refl _⟩
  | cons part parts ih =>
      rw [List.map_cons, List.sum_cons] at sum
      -- The other parts together are an amount, too, since the whole is one.
      have small : (parts.map UInt64.toNat).sum < UInt64.size :=
        Nat.lt_of_le_of_lt (by omega) whole.toNat_lt
      have others : (UInt64.ofNat (parts.map UInt64.toNat).sum).toNat =
          (parts.map UInt64.toNat).sum := UInt64.toNat_ofNat_of_lt' small
      rcases exists_calculate_of_add_eq (others ▸ sum) calculated with
        ⟨ofPart, ofOthers, partHas, othersHave, least⟩
      rcases ih others.symm othersHave with ⟨ofParts, each, total⟩
      refine ⟨ofPart :: ofParts, .cons partHas each, ?_⟩
      rw [List.map_cons, List.sum_cons]
      exact Nat.le_trans least (Nat.add_le_add_left total _)

/-- At a rate of at most one whole, the fee grows by no more than the amount does. -/
theorem toNat_calculate_le (atMostAll : fee.transferFeeBasisPoints.toNat ≤ 10000)
    (ordered : less ≤ more) {lower higher : UInt64} (lessHas : fee.calculate less = some lower)
    (moreHas : fee.calculate more = some higher) :
    higher.toNat ≤ lower.toNat + (more.toNat - less.toNat) := by
  have shares := share_le_add_of_le atMostAll ordered
  rw [(calculate_eq_some_iff.mp lessHas).2, (calculate_eq_some_iff.mp moreHas).2]
  omega

/-- Splitting a transfer never lowers what is withheld in all.  If a sum of two amounts has a fee,
so has either amount, and the fees are together no lower; and the same holds of the sum of any list
of amounts. -/
theorem splitting_never_lowers_fee (fee : TransferFee) :
    (∀ first second : UInt64, first.toNat + second.toNat ≤ 18446744073709551615 →
      ∀ withheld, fee.calculate (first + second) = some withheld →
        ∃ ofFirst ofSecond, fee.calculate first = some ofFirst ∧
          fee.calculate second = some ofSecond ∧
          withheld.toNat ≤ ofFirst.toNat + ofSecond.toNat) ∧
    (∀ parts : List UInt64, (parts.map UInt64.toNat).sum ≤ 18446744073709551615 →
      ∀ withheld, fee.calculate (UInt64.ofNat (parts.map UInt64.toNat).sum) = some withheld →
        ∃ ofParts, List.Forall₂ (fun part ofPart => fee.calculate part = some ofPart)
            parts ofParts ∧
          withheld.toNat ≤ (ofParts.map UInt64.toNat).sum) := by
  constructor
  · intro first second small withheld calculated
    have whole : first.toNat + second.toNat = (first + second).toNat := by
      rw [UInt64.toNat_add, Nat.mod_eq_of_lt (Nat.lt_succ_of_le small)]
    exact exists_calculate_of_add_eq whole calculated
  · intro parts small withheld calculated
    have whole : (parts.map UInt64.toNat).sum =
        (UInt64.ofNat (parts.map UInt64.toNat).sum).toNat :=
      (UInt64.toNat_ofNat_of_lt' (Nat.lt_succ_of_le small)).symm
    exact exists_calculate_of_sum_eq whole calculated

/-- A fee of one per cent, but of no more than 5. -/
def hundredth : TransferFee := ⟨0, 5, 100⟩

/-- Of 130 as much is withheld as of 60 and 70 one after the other, since each is rounded up.  Of
741 the cap is withheld, and more of three parts of it. -/
theorem splitting_under_hundredth :
    (∃ ofFirst ofSecond, hundredth.calculate 60 = some ofFirst ∧
      hundredth.calculate 70 = some ofSecond ∧ 2 ≤ ofFirst.toNat + ofSecond.toNat) ∧
    (∃ ofParts, List.Forall₂ (fun part ofPart => hundredth.calculate part = some ofPart)
      [1, 40, 700] ofParts ∧ 5 ≤ (ofParts.map UInt64.toNat).sum) ∧
    [130, 60, 70].map hundredth.calculate = [some 2, some 1, some 1] ∧
    [741, 1, 40, 700].map hundredth.calculate = [some 5, some 1, some 1, some 5] := by
  rcases splitting_never_lowers_fee hundredth with ⟨ofTwo, ofMany⟩
  exact ⟨ofTwo 60 70 (by decide) 2 (by decide), ofMany [1, 40, 700] (by decide) 5 (by decide),
    by decide, by decide⟩

/-- Fees and remainders grow with the amount.  If an amount has a fee, so has every smaller one, and
it is no higher.  At a rate of at most one whole both always have a fee and a remainder, the fees
differ by no more than the amounts, and so no less is left of the larger one. -/
theorem larger_transfers_deliver_no_less (fee : TransferFee) (less more : UInt64)
    (ordered : less ≤ more) :
    (∀ higher, fee.calculate more = some higher →
      ∃ lower, fee.calculate less = some lower ∧ lower ≤ higher) ∧
    (fee.transferFeeBasisPoints.toNat ≤ 10000 →
      ∃ lower higher restOfLess restOfMore,
        fee.calculate less = some lower ∧ fee.calculate more = some higher ∧ lower ≤ higher ∧
        higher.toNat - lower.toNat ≤ more.toNat - less.toNat ∧
        fee.remainder less = some restOfLess ∧ fee.remainder more = some restOfMore ∧
        restOfLess ≤ restOfMore) := by
  refine ⟨fun higher => exists_calculate_of_le ordered, ?atMostAll⟩
  case atMostAll =>
    intro atMostAll
    rcases exists_calculate_le atMostAll more with ⟨higher, moreHas, moreCovers⟩
    rcases exists_calculate_of_le ordered moreHas with ⟨lower, lessHas, fees⟩
    have lessCovers : lower ≤ less := calculate_le atMostAll lessHas
    have grown := toNat_calculate_le atMostAll ordered lessHas moreHas
    refine ⟨lower, higher, less - lower, more - higher, lessHas, moreHas, fees, ?fees,
      remainder_eq_some_iff.mpr ⟨lower, lessHas, lessCovers, rfl⟩,
      remainder_eq_some_iff.mpr ⟨higher, moreHas, moreCovers, rfl⟩, ?rests⟩
    case fees => omega
    case rests =>
      rw [UInt64.le_iff_toNat_le, UInt64.toNat_sub_of_le _ _ lessCovers,
        UInt64.toNat_sub_of_le _ _ moreCovers]
      -- No more is withheld of the difference than there is.
      have moreCovered : higher.toNat ≤ more.toNat := UInt64.le_iff_toNat_le.mp moreCovers
      have amounts : less.toNat ≤ more.toNat := UInt64.le_iff_toNat_le.mp ordered
      omega

/-- A fee of one half, but of no more than 7. -/
def half : TransferFee := ⟨0, 7, 5000⟩

/-- A fee of twice the amount, but of no more than 7. -/
def twofold : TransferFee := ⟨0, 7, 20000⟩

/-- One half is rounded up for 3 and not for 4, and still more is left of 4.  Twice as much as 3 is
less than the cap, which is what is withheld from 5. -/
theorem deliveries_of_half :
    (3 : UInt64) ≤ 4 ∧
    (∃ lower higher restOfLess restOfMore, half.calculate 3 = some lower ∧
      half.calculate 4 = some higher ∧ lower ≤ higher ∧ higher.toNat - lower.toNat ≤ 1 ∧
      half.remainder 3 = some restOfLess ∧ half.remainder 4 = some restOfMore ∧
      restOfLess ≤ restOfMore) ∧
    (∃ lower, twofold.calculate 3 = some lower ∧ lower ≤ 7) ∧
    [3, 4].map half.calculate = [some 2, some 2] ∧
    [3, 4].map half.remainder = [some 1, some 2] ∧
    [3, 5].map twofold.calculate = [some 6, some 7] := by
  have ordered : (3 : UInt64) ≤ 4 := by decide
  exact ⟨ordered, (larger_transfers_deliver_no_less half 3 4 ordered).2 (by decide),
    (larger_transfers_deliver_no_less twofold 3 5 (by decide)).1 7 (by decide), by decide,
    by decide, by decide⟩

end TransferFee

end TokenAccounts
