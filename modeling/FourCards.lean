import FourCards.Binary64.Bits
import FourCards.Main
import FourCards.Game.Table
import FourCards.Proofs.Grammar.Derivation
import FourCards.Proofs.Grammar.Reading
import FourCards.Proofs.Game.Verification
import FourCards.Proofs.Grammar.Numbers
import FourCards.Proofs.Grammar.Writing
import FourCards.Proofs.Search.Candidate
import FourCards.Proofs.Search.Enumeration
import FourCards.Proofs.Search.Direct
import FourCards.Game.Values
import FourCards.Proofs.Binary64.Comparison
import FourCards.Proofs.Game.Hint
import FourCards.Proofs.Grammar.Rejection
import FourCards.Proofs.Game.Verdict
import FourCards.Proofs.Search.Completeness
import FourCards.Proofs.Game.ZeroDivisor
import FourCards.Proofs.Game.Table
import FourCards.Proofs.Game.Lines
import FourCards.Proofs.Game.Play
import FourCards.Proofs.Game.Order
import FourCards.Proofs.Hand.Reading
import FourCards.Proofs.Text.Scan
import FourCards.Proofs.Search.Repeats
import FourCards.Proofs.Game.Spacing
import FourCards.Proofs.Game.Framing
import FourCards.Proofs.Game.Fairness
import FourCards.Proofs.Exact.Whole
import FourCards.Proofs.Game.Message
import FourCards.Proofs.Descent.Cursor
