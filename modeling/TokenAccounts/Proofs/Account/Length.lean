import Mathlib.Algebra.Ring.Nat
import TokenAccounts.Proofs.Account.Frame

/-!
# How long an account is

The length of an account is known before it is written: from its kind if it has no list of
extensions, and otherwise from the sizes of its extensions, which for most kinds are looked up in a
table.  Main statement: what is written is exactly that long, and never as long as a multisignature
account.
-/

namespace TokenAccounts

theorem Extension.totalSize_eq_sum (extensions : List Extension) :
    totalSize extensions =
      (extensions.map fun extension => Entry.headerLength + extension.size).sum := by
  induction extensions with
  | nil => rfl
  | cons extension extensions ih => rw [totalSize, List.map_cons, List.sum_cons, ih]

namespace Account

open AccountLayout

variable {kind : AccountKind} {account : Account kind} {bytes : List UInt8}

/-- An account is written as long as it is said to be. -/
theorem length_of_pack (packed : account.pack = .ok bytes) : bytes.length = account.size := by
  cases account with
  | mk base extensions =>
      cases extensions with
      | none =>
          cases packed
          exact AccountKind.length_write_base base
      | some extensions =>
          have written := (pack_eq_ok_iff.mp packed).2
          rw [written]
          exact length_frame_filler base extensions

theorem size_ne_multisig (account : Account kind) : account.size ≠ Multisig.length := by
  cases account with
  | mk base extensions =>
      cases extensions with
      | none => exact Nat.ne_of_lt kind.baseLength_lt_multisig
      | some extensions => exact avoidMultisig_ne _

/-- A multisignature account has 355 bytes. -/
theorem avoidMultisig_eq (length : Nat) :
    avoidMultisig length = if length = 355 then 357 else length := by
  by_cases full : length = 355
  · subst full
    rfl
  · rw [if_neg full]
    exact if_neg full

/-- An extended account takes up what stands in front of the entries and the entries, and two
bytes more if a multisignature account is that long. -/
theorem size_of_extensions {extensions : List Extension}
    (extended : account.extensions = some extensions) :
    account.size =
      let used := 166 + (extensions.map fun extension => 4 + extension.write.length).sum
      if used = 355 then 357 else used := by
  rw [size, extended, AccountLayout.length, Extension.totalSize_eq_sum, avoidMultisig_eq]
  simp only [Extension.length_write]
  rfl

/-- Sizes agree with what is written.  An extension takes as many bytes as it is said to take, and
so does an account that can be written.  That is the length of the base record if there is no list
of extensions, and otherwise that of the frame and the entries together, except that an account
with the length of a multisignature account, which is 355, gets two bytes more. -/
theorem length_write_and_pack (kind : AccountKind) :
    (∀ extension : Extension, extension.size = extension.write.length) ∧
    ∀ (account : Account kind) (bytes : List UInt8), account.pack = .ok bytes →
      bytes.length = account.size ∧
      account.size = AccountLayout.length kind account.extensions ∧
      bytes.length ≠ Multisig.length ∧
      (account.extensions = none → bytes.length = kind.baseLength) ∧
      (∀ extensions, account.extensions = some extensions →
        bytes.length =
          let used := 166 + (extensions.map fun extension => 4 + extension.write.length).sum
          if used = 355 then 357 else used) ∧
      (account.extensions = some [] → bytes.length = 166) := by
  constructor
  · intro extension
    exact extension.length_write.symm
  · intro account bytes packed
    rw [length_of_pack packed]
    refine ⟨rfl, rfl, account.size_ne_multisig, ?bare, fun _ => size_of_extensions, ?empty⟩
    case bare =>
      intro bare
      rw [size, bare]
      rfl
    case empty =>
      intro empty
      exact size_of_extensions empty

/-- A mint whose name fills it up to the length of a multisignature account. -/
def namedMint : Account .mint where
  base := ⟨none, 1000, 9, true, none⟩
  extensions := some [.typed .tokenMetadata {
    updateAuthority := none
    mint := .zero .address
    name := String.ofList (List.replicate 105 'n')
    symbol := ""
    uri := ""
    additionalMetadata := [] }]

/-- That mint is written with two bytes more than it needs. -/
theorem length_namedMint :
    ∃ bytes, namedMint.pack = .ok bytes ∧ bytes.length = namedMint.size ∧
      bytes.length = 357 := by
  obtain ⟨bytes, packed⟩ : ∃ bytes, namedMint.pack = .ok bytes :=
    ⟨_, pack_eq_ok_iff.mpr ⟨by decide +kernel, rfl⟩⟩
  have lengths := (length_write_and_pack .mint).2 namedMint bytes packed
  refine ⟨bytes, packed, lengths.1, ?_⟩
  rw [lengths.2.2.2.2.1 _ rfl]
  decide +kernel

end Account

end TokenAccounts
