import Frontend.Typed.Listing
import Frontend.Proofs.Constants
import Frontend.Proofs.Collisions
import Frontend.Proofs.Storage
import Frontend.Proofs.Collection
import Frontend.Proofs.Idle
import Frontend.Proofs.CleanCheck
import Frontend.Proofs.LoweredUnits
import Frontend.Proofs.FailedBodies
import Frontend.Proofs.Widths
import Frontend.Proofs.Exactness
import Frontend.Proofs.Pointers
import Frontend.Proofs.Parsing.Alone
import Frontend.Proofs.Parsing.Coverage
import Frontend.Proofs.Parsing.Outline
import Frontend.Proofs.Printing.Spelling
import Frontend.Proofs.Idempotence
