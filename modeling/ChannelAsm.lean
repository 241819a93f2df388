import ChannelAsm.Command.Arguments
import ChannelAsm.Command.Basic
import ChannelAsm.Command.Batch
import ChannelAsm.Command.Completion
import ChannelAsm.Command.Folder
import ChannelAsm.Command.Session
import ChannelAsm.Command.Surroundings
import ChannelAsm.Command.Terminal
import ChannelAsm.Command.Transcript
import ChannelAsm.Command.Usage
import ChannelAsm.Diagnostic.Basic
import ChannelAsm.Diagnostic.Fault
import ChannelAsm.Image.Declaration
import ChannelAsm.Image.Layout
import ChannelAsm.Image.Memory
import ChannelAsm.Image.Symbol
import ChannelAsm.Isa.Channel
import ChannelAsm.Isa.Interrupt
import ChannelAsm.Isa.Mnemonic
import ChannelAsm.Isa.Operand
import ChannelAsm.Machine.Action
import ChannelAsm.Machine.Bank
import ChannelAsm.Machine.Run
import ChannelAsm.Machine.Service
import ChannelAsm.Machine.Stack
import ChannelAsm.Main
import ChannelAsm.Outcome
import ChannelAsm.Program.Basic
import ChannelAsm.Program.Build
import ChannelAsm.Proofs.Command.Batch
import ChannelAsm.Proofs.Command.Loading
import ChannelAsm.Proofs.Command.Offering
import ChannelAsm.Proofs.Command.Session
import ChannelAsm.Proofs.Command.Terminal
import ChannelAsm.Proofs.Command.Transcript
import ChannelAsm.Proofs.Diagnostic
import ChannelAsm.Proofs.Dialogue
import ChannelAsm.Proofs.Except
import ChannelAsm.Proofs.Image.Access
import ChannelAsm.Proofs.Image.Contents
import ChannelAsm.Proofs.Image.Declaration
import ChannelAsm.Proofs.Image.Entry
import ChannelAsm.Proofs.Image.Placement
import ChannelAsm.Proofs.Image.Refusal
import ChannelAsm.Proofs.Image.Room
import ChannelAsm.Proofs.Isa.Literal
import ChannelAsm.Proofs.Machine.Arithmetic
import ChannelAsm.Proofs.Machine.Bank
import ChannelAsm.Proofs.Machine.Concealment
import ChannelAsm.Proofs.Machine.Conservation
import ChannelAsm.Proofs.Machine.Console
import ChannelAsm.Proofs.Machine.Equivalence
import ChannelAsm.Proofs.Machine.Failure
import ChannelAsm.Proofs.Machine.FallThrough
import ChannelAsm.Proofs.Machine.Faults
import ChannelAsm.Proofs.Machine.Footprint
import ChannelAsm.Proofs.Machine.History
import ChannelAsm.Proofs.Machine.Independence
import ChannelAsm.Proofs.Machine.Literal
import ChannelAsm.Proofs.Machine.Location
import ChannelAsm.Proofs.Machine.Log
import ChannelAsm.Proofs.Machine.Objection
import ChannelAsm.Proofs.Machine.Primitive
import ChannelAsm.Proofs.Machine.Printing
import ChannelAsm.Proofs.Machine.Pushing
import ChannelAsm.Proofs.Machine.Reading
import ChannelAsm.Proofs.Machine.Rounds
import ChannelAsm.Proofs.Machine.Seed
import ChannelAsm.Proofs.Machine.Transfer
import ChannelAsm.Proofs.Outcome
import ChannelAsm.Proofs.Outcome.Ensures
import ChannelAsm.Proofs.Outcome.Trace
import ChannelAsm.Proofs.Program.Boundaries
import ChannelAsm.Proofs.Program.Capacity
import ChannelAsm.Proofs.Program.Declared
import ChannelAsm.Proofs.Program.Likeness
import ChannelAsm.Proofs.Program.Linking
import ChannelAsm.Proofs.Program.Meaning
import ChannelAsm.Proofs.Program.Rebuild
import ChannelAsm.Proofs.Program.Section
import ChannelAsm.Proofs.Program.SectionOrder
import ChannelAsm.Proofs.Program.Wording
import ChannelAsm.Proofs.Source.Annotation
import ChannelAsm.Proofs.Source.Closing
import ChannelAsm.Proofs.Source.Doubling
import ChannelAsm.Proofs.Source.Emission
import ChannelAsm.Proofs.Source.Idempotence
import ChannelAsm.Proofs.Source.Listing
import ChannelAsm.Proofs.Source.Separation
import ChannelAsm.Proofs.Text.Integer
import ChannelAsm.Proofs.Text.Lines
import ChannelAsm.Proofs.Text.Numeral
import ChannelAsm.Proofs.Text.Trim
import ChannelAsm.Report.Basic
import ChannelAsm.Report.Record
import ChannelAsm.Source.Event
import ChannelAsm.Source.Line
import ChannelAsm.Source.Listing
import ChannelAsm.Text.Blank
import ChannelAsm.Text.Hexadecimal
import ChannelAsm.Text.Lines
import ChannelAsm.Text.Numeral
import ChannelAsm.Text.Trim
import ChannelAsm.Text.Words
