import DocDecl.Main
import DocDecl.Service.Basic
import DocDecl.Proofs.Literal.Grammar
import DocDecl.Proofs.Literal.Reading
import DocDecl.Proofs.Literal.Extent
import DocDecl.Proofs.Head.Assignment
import DocDecl.Proofs.Comment.Accounting
import DocDecl.Proofs.Grouping.Placement
import DocDecl.Proofs.Grouping.Rendering
import DocDecl.Proofs.Grouping.Conservation
import DocDecl.Proofs.Grouping.Partition
import DocDecl.Proofs.Declaration.Members
import DocDecl.Proofs.Generation.Calls
import DocDecl.Proofs.Comment.Naming
import DocDecl.Proofs.Declaration.Expansion
import DocDecl.Proofs.Comment.Excerpt
import DocDecl.Proofs.Grouping.Privacy
import DocDecl.Proofs.Declaration.QualifiedName
import DocDecl.Proofs.Generation.Privacy
import DocDecl.Proofs.Generation.LineEnds
import DocDecl.Proofs.Generation.Session
import DocDecl.Proofs.Comment.Override
import DocDecl.Proofs.Comment.Coverage
import DocDecl.Proofs.Comment.TypedTag
import DocDecl.Proofs.Comment.Cleaning
import DocDecl.Proofs.Delimiter.Balanced
import DocDecl.Proofs.Head.ParameterList
import DocDecl.Proofs.Head.Arguments
import DocDecl.Proofs.Parameter.Rest
import DocDecl.Proofs.Comment.Verbatim
import DocDecl.Proofs.Parameter.Optional
import DocDecl.Proofs.Parameter.LineBreaks
import DocDecl.Proofs.Literal.Keys
import DocDecl.Proofs.Layout.NormalForm
import DocDecl.Proofs.Parameter.Rendering
import DocDecl.Proofs.TypeExpr.UnionTree
import DocDecl.Proofs.Parameter.Interleaving
import DocDecl.Proofs.Comment.Indentation
import DocDecl.Proofs.Comment.TagWord
import DocDecl.Proofs.Declaration.Export
import DocDecl.Proofs.Declaration.Diagnosis
import DocDecl.Proofs.TypeExpr.StringLiteral
import DocDecl.Proofs.Declaration.Nesting
import DocDecl.Proofs.Settings.Acceptance
import DocDecl.Proofs.TypeExpr.Nesting
import DocDecl.Proofs.Head.PropertyAssignment
import DocDecl.Proofs.Head.NormalForm
