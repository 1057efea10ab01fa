import MarketScript.Main
import MarketScript.Source.Cursor
import MarketScript.Proofs.Dispatch
import MarketScript.Proofs.Chain.Atomicity
import MarketScript.Proofs.Chain.Authority
import MarketScript.Proofs.Chain.Consent
import MarketScript.Proofs.Chain.Conservation
import MarketScript.Proofs.Chain.Exchange
import MarketScript.Proofs.Chain.Holdings
import MarketScript.Proofs.Chain.Independence
import MarketScript.Proofs.Chain.Permanence
import MarketScript.Proofs.Chain.Range
import MarketScript.Proofs.Command.Atomicity
import MarketScript.Proofs.Command.Lookup
import MarketScript.Proofs.Command.Nesting
import MarketScript.Proofs.Command.Refusal
import MarketScript.Proofs.Lexer.Lossless
import MarketScript.Proofs.Lexer.Quotation
import MarketScript.Proofs.Manifest.Addresses
import MarketScript.Proofs.Reading.Defined
import MarketScript.Proofs.Reading.Fold
import MarketScript.Proofs.Reading.Numbers
import MarketScript.Proofs.Run.Agreement
import MarketScript.Proofs.Run.CloseFactor
import MarketScript.Proofs.Run.DryRun
import MarketScript.Proofs.Run.Failures
import MarketScript.Proofs.Run.Inspection
import MarketScript.Proofs.Run.Sender
import MarketScript.Proofs.Run.Transcript
import MarketScript.Proofs.Statement.Groups
import MarketScript.Proofs.Statement.Isolation
import MarketScript.Proofs.Statement.RoundTrip
import MarketScript.Proofs.Statement.Spans
import MarketScript.Proofs.Value
