import CatalystAsm.Host.Tree
import CatalystAsm.Main
import CatalystAsm.Proofs.Path
import CatalystAsm.Proofs.Host.Tree
import CatalystAsm.Proofs.Build.Display
import CatalystAsm.Proofs.Build.Output
import CatalystAsm.Proofs.Statement.Expression
import CatalystAsm.Proofs.Statement.Arithmetic
import CatalystAsm.Proofs.Statement.Reading
import CatalystAsm.Proofs.Statement.Numeral
import CatalystAsm.Proofs.Statement.Grammar
import CatalystAsm.Proofs.Statement.Relocation
import CatalystAsm.Proofs.Assembly.Outcome
import CatalystAsm.Proofs.Assembly.Table
import CatalystAsm.Proofs.Assembly.Step
import CatalystAsm.Proofs.Assembly.State
import CatalystAsm.Proofs.Assembly.Directive
import CatalystAsm.Proofs.Assembly.KernelDirective
import CatalystAsm.Proofs.Assembly.Clause
import CatalystAsm.Proofs.Container.Layout
import CatalystAsm.Proofs.Container.Size
import CatalystAsm.Proofs.Container.Record
import CatalystAsm.Proofs.Container.Image
import CatalystAsm.Proofs.Container.Kernel
import CatalystAsm.Proofs.Container.Binary
import CatalystAsm.Proofs.Container.Window
import CatalystAsm.Proofs.Assembly.Prepare
import CatalystAsm.Proofs.Assembly.Placement
import CatalystAsm.Proofs.Assembly.Symbol
import CatalystAsm.Proofs.Container.Export
import CatalystAsm.Proofs.Assembly.Export
import CatalystAsm.Proofs.Container.Binding
import CatalystAsm.Proofs.Assembly.Binding
import CatalystAsm.Proofs.Assembly.Frame
import CatalystAsm.Proofs.Assembly.Mode
import CatalystAsm.Proofs.Assembly.Generate
import CatalystAsm.Proofs.Container.ClosedForm
import CatalystAsm.Proofs.Dump.Model
import CatalystAsm.Proofs.Container.Resource
import CatalystAsm.Proofs.Assembly.Resume
import CatalystAsm.Proofs.Diagnostic.Bag
import CatalystAsm.Proofs.Source.Line
import CatalystAsm.Proofs.Source.Position
import CatalystAsm.Proofs.Statement.Place
import CatalystAsm.Proofs.Assembly.Report
import CatalystAsm.Proofs.Assembly.Diagnostic
import CatalystAsm.Proofs.Assembly.KernelReport
import CatalystAsm.Proofs.Container.DriverInfo
import CatalystAsm.Proofs.Assembly.Definition
import CatalystAsm.Proofs.Statement.Integer
import CatalystAsm.Proofs.Statement.Literal
import CatalystAsm.Proofs.Statement.Comment
import CatalystAsm.Proofs.Statement.Range
import CatalystAsm.Proofs.Statement.NumberList
import CatalystAsm.Proofs.Assembly.Data
import CatalystAsm.Proofs.Assembly.SectionName
import CatalystAsm.Proofs.Trace.Ring
import CatalystAsm.Proofs.Trace.History
import CatalystAsm.Proofs.Trace.Span
import CatalystAsm.Proofs.Trace.Forest
import CatalystAsm.Proofs.Build.Course
import CatalystAsm.Proofs.Build.Progress
import CatalystAsm.Proofs.Container.SectionIndex
import CatalystAsm.Proofs.Statement.Progress
import CatalystAsm.Proofs.Container.Argument
