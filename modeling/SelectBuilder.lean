import SelectBuilder.Arg.Outline
import SelectBuilder.Bindings.Change
import SelectBuilder.DefaultDialect
import SelectBuilder.Program.Report
import SelectBuilder.Proofs.Surplus
import SelectBuilder.Proofs.Unions
import SelectBuilder.Proofs.CallOrder
import SelectBuilder.Proofs.ClausePrinting
import SelectBuilder.Proofs.Erasure
import SelectBuilder.Proofs.ValueIndependence
import SelectBuilder.Proofs.NamesQuoted
import SelectBuilder.Proofs.ExecutionAgreement
import SelectBuilder.Proofs.CriteriaGroups
import SelectBuilder.Proofs.OperandShapes
import SelectBuilder.Proofs.InertLiterals
import SelectBuilder.Proofs.ChildStatements
import SelectBuilder.Proofs.DoubledQuotes
import SelectBuilder.Proofs.QuotedText
import SelectBuilder.Proofs.ReadableLiterals
import SelectBuilder.Proofs.JoinConditions
import SelectBuilder.Proofs.GroupClosing
import SelectBuilder.Proofs.DenotedStrings
import SelectBuilder.Proofs.WrappedNames
import SelectBuilder.Proofs.BindingLedger
import SelectBuilder.Proofs.WordGrammars
import SelectBuilder.Proofs.LeafPlaces
import SelectBuilder.Proofs.ShortestDecimals
