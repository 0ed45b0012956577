import HiddenRule.Json.Board
import HiddenRule.Json.Game
import HiddenRule.Json.Grammar
import HiddenRule.Json.Rule
import HiddenRule.Main
import HiddenRule.Proofs.Assembly
import HiddenRule.Proofs.Derivation
import HiddenRule.Proofs.Budget
import HiddenRule.Proofs.Validation
import HiddenRule.Proofs.Termination
import HiddenRule.Proofs.StockRules
import HiddenRule.Proofs.Playable
import HiddenRule.Proofs.Connectedness
import HiddenRule.Proofs.Evaluation
import HiddenRule.Proofs.Filling
import HiddenRule.Proofs.RandomBoards
import HiddenRule.Proofs.Search
import HiddenRule.Proofs.Transcript
import HiddenRule.Proofs.Decks
import HiddenRule.Proofs.DeadEnds
import HiddenRule.Proofs.Nodes
import HiddenRule.Proofs.Position
import HiddenRule.Proofs.Wording
import HiddenRule.Proofs.Relabelling
import HiddenRule.Proofs.Symmetry
import HiddenRule.Proofs.Walks
import HiddenRule.Proofs.Calls
import HiddenRule.Proofs.Separation
import HiddenRule.Proofs.Faults
import HiddenRule.Proofs.Streams
import HiddenRule.Proofs.Replay
import HiddenRule.Proofs.Chances
import HiddenRule.Proofs.Contiguity
import HiddenRule.Proofs.Blueprints
import HiddenRule.Proofs.Classes
import HiddenRule.Proofs.Traits
import HiddenRule.Proofs.Quotas
import HiddenRule.Proofs.Parsing
import HiddenRule.Proofs.Registration
import HiddenRule.Proofs.Records
import HiddenRule.Proofs.RoundTrip
