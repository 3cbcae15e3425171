import FlowSuite.CommandLine.Disk
import FlowSuite.Main
import FlowSuite.Proofs.Execution
import FlowSuite.Proofs.Expression.Translation
import FlowSuite.Proofs.Nesting
import FlowSuite.Proofs.Reports
import FlowSuite.Proofs.Recording
import FlowSuite.Proofs.FileNames
import FlowSuite.Proofs.Indentation.Block
import FlowSuite.Proofs.Indentation.Selenium
import FlowSuite.Proofs.Outline
import FlowSuite.Proofs.Wiring
import FlowSuite.Proofs.Brackets.Scanner
import FlowSuite.Proofs.Brackets.Expression
import FlowSuite.Proofs.Brackets.Cypress
import FlowSuite.Proofs.Indentation.FieldText
import FlowSuite.Proofs.WatchedLoops
import FlowSuite.Proofs.Json.Value
import FlowSuite.Proofs.Json.Text
import FlowSuite.Proofs.FlowText
import FlowSuite.Proofs.Expression.Segments
import FlowSuite.Proofs.Expression.Classification
import FlowSuite.Proofs.Canvas
import FlowSuite.Proofs.Remarks
import FlowSuite.Proofs.Number.Grammar
import FlowSuite.Proofs.Number.Writing
import FlowSuite.Proofs.Expression.Pieces
import FlowSuite.Proofs.Expression.Indices
import FlowSuite.Proofs.Locators
import FlowSuite.Proofs.PythonNames
import FlowSuite.Proofs.Json.Spelling
import FlowSuite.Proofs.Quoting
import FlowSuite.Proofs.StepFields
import FlowSuite.Proofs.Number.Reading
import FlowSuite.Proofs.Json.Grammar
import FlowSuite.Proofs.MockBodies
