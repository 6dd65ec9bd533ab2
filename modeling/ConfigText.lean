import ConfigText.Main
import ConfigText.PropertyLookup
import ConfigText.Server
import ConfigText.Proofs.Answers
import ConfigText.Proofs.Balance
import ConfigText.Proofs.Building
import ConfigText.Proofs.Chains
import ConfigText.Proofs.Coverage
import ConfigText.Proofs.CycleCheck
import ConfigText.Proofs.Defaults
import ConfigText.Proofs.Dependencies
import ConfigText.Proofs.Depth
import ConfigText.Proofs.Endless
import ConfigText.Proofs.Fallbacks
import ConfigText.Proofs.Inspection
import ConfigText.Proofs.Leaves
import ConfigText.Proofs.Leftovers
import ConfigText.Proofs.Markup
import ConfigText.Proofs.Merging
import ConfigText.Proofs.OpenKeys
import ConfigText.Proofs.Oracles
import ConfigText.Proofs.Precedence
import ConfigText.Proofs.Serving
import ConfigText.Proofs.Sources
import ConfigText.Proofs.Splicing
import ConfigText.Proofs.Stack
import ConfigText.Proofs.Stopping
import ConfigText.Proofs.Surfaces
import ConfigText.Proofs.Unresolved
