import XdrPack.Main
import XdrPack.Proofs.Grammar
import XdrPack.Proofs.Reading
import XdrPack.Proofs.Reading.List
import XdrPack.Proofs.Reading.Declaration
import XdrPack.Proofs.Reading.Definition
import XdrPack.Proofs.Recognition
import XdrPack.Proofs.FirstFault
import XdrPack.Proofs.Acceptance
import XdrPack.Proofs.WrittenForm
import XdrPack.Proofs.TypeNames
import XdrPack.Proofs.Wire
import XdrPack.Proofs.Choice
import XdrPack.Proofs.WireFormat
import XdrPack.Proofs.Python.Statements
import XdrPack.Proofs.Python.References
import XdrPack.Proofs.Fallthrough
import XdrPack.Proofs.Session
import XdrPack.Proofs.Resolution
import XdrPack.Proofs.Scanning
import XdrPack.Proofs.TwoPhases
import XdrPack.Proofs.Spelling
import XdrPack.Proofs.Printing
import XdrPack.Proofs.Python.Definitions
import XdrPack.Proofs.Rendering
import XdrPack.Proofs.Python.Unbroken
import XdrPack.Proofs.Python.Comment
import XdrPack.Proofs.Numerals
import XdrPack.Proofs.Partition
import XdrPack.Proofs.Refusal
import XdrPack.Proofs.HookCalls
import XdrPack.Proofs.FileNames
import XdrPack.Proofs.Locations
import XdrPack.Proofs.Publication
import XdrPack.Proofs.Relocation
import XdrPack.Proofs.Relocation.Compiler
import XdrPack.Proofs.Layout
import XdrPack.Proofs.Concatenation
import XdrPack.Proofs.Python.Pieces
import XdrPack.Proofs.Exchange
import XdrPack.Proofs.Python.Execution
import XdrPack.Proofs.Python.Agreement
import XdrPack.Proofs.Grounds
import XdrPack.Proofs.ReservedNames
import XdrPack.Proofs.Indentation
import XdrPack.Proofs.Python.Indentation
import XdrPack.Proofs.Python.Bindings
import XdrPack.Proofs.Python.Capture
import XdrPack.Proofs.ConstantReferences
import XdrPack.Proofs.Python.ConstantReferences
import XdrPack.Proofs.BuildEffect
import XdrPack.Proofs.FiniteValues
import XdrPack.Proofs.Python.Parameters
import XdrPack.Proofs.WriteOnce
import XdrPack.Proofs.Python.IntegerLiterals
import XdrPack.Proofs.Separators
import XdrPack.Proofs.Positions
import XdrPack.Proofs.InPlace
import XdrPack.Proofs.RepeatedCalls
import XdrPack.Proofs.Python.FieldNames
import XdrPack.Proofs.Constructs
import XdrPack.Proofs.ErrorLines
import XdrPack.Proofs.ModuleNames
import XdrPack.Proofs.InputKept
import XdrPack.Proofs.Python.Banner
import XdrPack.Proofs.UnionMembers
import XdrPack.Proofs.Python.UnionAttributes
