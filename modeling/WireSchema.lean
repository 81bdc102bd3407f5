import WireSchema.Main
import WireSchema.Proofs.Sharing
import WireSchema.Proofs.Resources
import WireSchema.Proofs.Termination
import WireSchema.Proofs.Bounds
import WireSchema.Proofs.Secrets
import WireSchema.Proofs.Hierarchy
import WireSchema.Proofs.Values
import WireSchema.Proofs.Bookkeeping
import WireSchema.Proofs.Silence
import WireSchema.Proofs.Agreement
import WireSchema.Proofs.Simulation
import WireSchema.Proofs.Noninterference
import WireSchema.Proofs.Assembling
import WireSchema.Proofs.Reordering
import WireSchema.Proofs.Reading
import WireSchema.Proofs.Independence
import WireSchema.Proofs.Threshold
import WireSchema.Proofs.Declarations
import WireSchema.Proofs.ReadOnly
import WireSchema.Proofs.Fetching
import WireSchema.Proofs.Levels
import WireSchema.Proofs.Bucketing
import WireSchema.Proofs.Isolation
import WireSchema.Proofs.Arguments
import WireSchema.Proofs.Headers
import WireSchema.Proofs.Multiples
import WireSchema.Proofs.Constants
import WireSchema.Proofs.LowerCase
import WireSchema.Proofs.Placeholders
import WireSchema.Proofs.NormalForm
import WireSchema.Proofs.Renaming
import WireSchema.Proofs.Views
import WireSchema.Proofs.ScalarChains
import WireSchema.Proofs.Payloads
import WireSchema.Proofs.Enumerations
import WireSchema.Proofs.ErrorFormats
import WireSchema.Proofs.HostPlaceholders
import WireSchema.Proofs.PagingSearch
import WireSchema.Proofs.Ancestry
import WireSchema.Proofs.ErrorEnvelopes
import WireSchema.Proofs.FreshNames
