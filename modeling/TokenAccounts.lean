import TokenAccounts.Amount.Mint
import TokenAccounts.Extension.Required
import TokenAccounts.Proofs.Account.Bounds
import TokenAccounts.Proofs.Account.Editing
import TokenAccounts.Proofs.Account.InPlace
import TokenAccounts.Proofs.Account.Length
import TokenAccounts.Proofs.Account.LengthOfTypes
import TokenAccounts.Proofs.Account.Lookup
import TokenAccounts.Proofs.Account.Required
import TokenAccounts.Proofs.Account.Shape
import TokenAccounts.Proofs.Account.Truncation
import TokenAccounts.Proofs.Amount.Acceptance
import TokenAccounts.Proofs.Amount.FeeComparison
import TokenAccounts.Proofs.Amount.Mint
import TokenAccounts.Proofs.Amount.Numeral
import TokenAccounts.Proofs.Amount.Rendering
import TokenAccounts.Proofs.Amount.Withholding
import TokenAccounts.Proofs.Extension.Appending
import TokenAccounts.Proofs.Extension.MetadataEditing
import TokenAccounts.Proofs.Extension.MetadataParsing
import TokenAccounts.Proofs.Field.Consumption
import TokenAccounts.Proofs.Json.RoundTrip
import TokenAccounts.WellKnown
