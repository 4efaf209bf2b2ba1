import Crosswire.Instruction
import Crosswire.Value
import Crosswire.Token
import Crosswire.Program
import Crosswire.Bracket.Scan
import Crosswire.Bracket.Pairing
import Crosswire.Stacks
import Crosswire.State
import Crosswire.Execution
import Crosswire.Words
import Crosswire.Style
import Crosswire.Renderer
import Crosswire.Sink
import Crosswire.Terminal
import Crosswire.Outcome
import Crosswire.Event
import Crosswire.Machine
import Crosswire.Run
import Crosswire.Text.Pieces
import Crosswire.Text.Slice
import Crosswire.Text.Unsigned
import Crosswire.Text.Alphanumeric
import Crosswire.Text.WhiteSpace
import Crosswire.Text.ControlSequence
import Crosswire.Text.Numeral
import Crosswire.Text.Pattern.Escape
import Crosswire.Text.Pattern.CharacterSet
import Crosswire.Text.Pattern.Group
import Crosswire.Text.Pattern.WellFormed
import Crosswire.Codec.Binary
import Crosswire.Codec.Decimal
import Crosswire.Codec.JsonText
import Crosswire.SourceFile
import Crosswire.FileTree
import Crosswire.LogFilter
import Crosswire.CommandLine.Options
import Crosswire.CommandLine.Timing
import Crosswire.CommandLine.Session
import Crosswire.Main
import Crosswire.Proofs.BracketMatching
import Crosswire.Proofs.Turns
import Crosswire.Proofs.JumpCaching
import Crosswire.Proofs.Printing
import Crosswire.Proofs.Blocks
import Crosswire.Proofs.StructuredLoops
import Crosswire.Proofs.StepLimit
import Crosswire.Proofs.Retrying
import Crosswire.Proofs.History
import Crosswire.Proofs.UnmatchedBrackets
import Crosswire.Proofs.DataArea
import Crosswire.Proofs.ReachableStates
import Crosswire.Proofs.Conservation
import Crosswire.Proofs.SequentialComposition
import Crosswire.Proofs.CallingAgain
import Crosswire.Proofs.Lockstep
import Crosswire.Proofs.StylingIndependence
import Crosswire.Proofs.PrintedText
import Crosswire.Proofs.TokenSpans
import Crosswire.Proofs.CanonicalSource
import Crosswire.Proofs.SelfDelimitingForm
import Crosswire.Proofs.JsonForm
import Crosswire.Proofs.TerminalWriting
import Crosswire.Proofs.TerminalDecoding
import Crosswire.Proofs.LimitedOutput
import Crosswire.Proofs.LogReplay
import Crosswire.Proofs.BracketNesting
import Crosswire.Proofs.CommandAgreement
import Crosswire.Proofs.FaultConditions
import Crosswire.Proofs.ScanBalance
import Crosswire.Proofs.PrivateFrames
import Crosswire.Proofs.StraightLine
import Crosswire.Proofs.CountedLoops
import Crosswire.Proofs.TextPrograms
import Crosswire.Proofs.BackwardJumps
import Crosswire.Proofs.StyledRendering
import Crosswire.Proofs.ValueArithmetic
import Crosswire.Proofs.CyclicRotation
import Crosswire.Proofs.ValueQueue
import Crosswire.Proofs.PrintedCharacters
