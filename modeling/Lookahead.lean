import Lookahead.Session.Step
import Lookahead.Proofs.First.Derivation
import Lookahead.Proofs.First.Renaming
import Lookahead.Proofs.Registry.Entries
import Lookahead.Proofs.Registry.Growth
import Lookahead.Proofs.Rule.Arrow
import Lookahead.Proofs.Rule.Written
import Lookahead.Proofs.First.Honoured
import Lookahead.Proofs.First.InPlace
import Lookahead.Proofs.First.Language
import Lookahead.Proofs.First.Shape
import Lookahead.Proofs.Grammar.Outcome
import Lookahead.Proofs.First.Product
import Lookahead.Proofs.First.Covered
import Lookahead.Proofs.First.Reach
import Lookahead.Proofs.First.Extended
import Lookahead.Proofs.First.FromRules
import Lookahead.Proofs.First.Epsilon
import Lookahead.Proofs.Registry.Resolved
import Lookahead.Proofs.Rule.Verdict
import Lookahead.Proofs.Session.Sharing
import Lookahead.Proofs.Symbol.Bits
import Lookahead.Proofs.Grammar.Reports
import Lookahead.Proofs.Text.Quoted
import Lookahead.Proofs.Messages
