import OpcWire.Conformance
import OpcWire.Dictionary.Standard
import OpcWire.Files.Tree
import OpcWire.Generator.Run
import OpcWire.IdTable.Csv
import OpcWire.IdTable.Standard
import OpcWire.Json.Document
import OpcWire.Json.Printer
import OpcWire.Main
import OpcWire.Message
import OpcWire.Naming
import OpcWire.Proofs.Builtin.DiagnosticInfo
import OpcWire.Proofs.Builtin.NodeId
import OpcWire.Proofs.Builtin.Number
import OpcWire.Proofs.Builtin.Text
import OpcWire.Proofs.Framing
import OpcWire.Proofs.Limits
import OpcWire.Proofs.Registry
import OpcWire.Proofs.RoundTrip
import OpcWire.Proofs.Scalar
import OpcWire.Proofs.Text.Utf8
import OpcWire.Proofs.Value.Extent
import OpcWire.Proofs.Value.Normal
import OpcWire.Proofs.Value.PrefixCode
import OpcWire.Proofs.Value.Reading
import OpcWire.Proofs.Value.Rewriting
import OpcWire.Proofs.Wire.Lawful
import OpcWire.Proofs.Wire.LittleEndian
import OpcWire.Proofs.Wire.Postcondition
import OpcWire.Proofs.Wire.PrefixCode
import OpcWire.Proofs.Wire.Reading
import OpcWire.Proofs.Wire.Written
import OpcWire.Proofs.Value.Coinciding
import OpcWire.Proofs.Identity
import OpcWire.Proofs.Builtin.Indifferent
import OpcWire.Proofs.Value.Watching
import OpcWire.Proofs.OpenBodies
import OpcWire.Proofs.Value.Layers
import OpcWire.Proofs.Dispatch
import OpcWire.Generator.ZeroValue
import OpcWire.Proofs.Generator.Definitions
import OpcWire.Proofs.Generator.ZeroValue
import OpcWire.Proofs.ZeroValues
import OpcWire.Proofs.Generator.Hierarchy
import OpcWire.Proofs.Generator.Fields
import OpcWire.Proofs.Generator.Resolution
import OpcWire.Proofs.Hierarchy
import OpcWire.Proofs.Closure
import OpcWire.Proofs.Growth
import OpcWire.Generator.Initialiser
import OpcWire.Proofs.Naming
import OpcWire.Proofs.Naming.Words
import OpcWire.Proofs.Text.Lines
import OpcWire.Proofs.Source.Reading
import OpcWire.Proofs.Source.Registration
import OpcWire.Proofs.IdTable.Csv
import OpcWire.Proofs.IdTable.Index
import OpcWire.Proofs.Source.Identifiers
import OpcWire.Proofs.Source.Objects
import OpcWire.Proofs.Initialisers
import OpcWire.Generator.Interpreter
import OpcWire.Proofs.Value.Equality
import OpcWire.Proofs.Conformance
import OpcWire.Proofs.Wire.Mapping
import OpcWire.Proofs.Generator.Interpreter
import OpcWire.Proofs.Interpretation
import OpcWire.Proofs.Wire.Failing
import OpcWire.Proofs.Builtin.Failing
import OpcWire.Proofs.Value.Trail
import OpcWire.Proofs.Value.Lengths
import OpcWire.Proofs.Errors
import OpcWire.Proofs.FieldPaths
import OpcWire.Proofs.Calendar.Instant
import OpcWire.Proofs.Builtin.DateTime
import OpcWire.Proofs.Timestamps
import OpcWire.Proofs.ExpandedIds
import OpcWire.Proofs.Sessions
import OpcWire.Proofs.Registrations
import OpcWire.Proofs.Validation
import OpcWire.Proofs.DataFields
import OpcWire.Proofs.Source.Enumerations
import OpcWire.Proofs.Generator.Enumerations
import OpcWire.Proofs.Enumerations
import OpcWire.Proofs.LegalNames
import OpcWire.Source.Items
import OpcWire.Proofs.Source.Items
import OpcWire.Proofs.Source.WireForms
import OpcWire.Proofs.WireForms
import OpcWire.Proofs.MemberConstants
import OpcWire.Proofs.DeclaredNames
import OpcWire.IdTable.Layout
import OpcWire.Proofs.Text.Blank
import OpcWire.Proofs.TableLayouts
import OpcWire.Proofs.TableFaults
import OpcWire.Proofs.IdentifierConstants
import OpcWire.Proofs.Files.Tree
import OpcWire.Proofs.Runs
import OpcWire.Proofs.Insertions
import OpcWire.Proofs.ErrorContexts
import OpcWire.Proofs.Naming.Splitting
import OpcWire.Proofs.NameWords
import OpcWire.Proofs.SnakeCase
