import PlanScribe.Layout.ScopeStack
import PlanScribe.Session
import PlanScribe.Document.OnFile
import PlanScribe.Cli.Action
import PlanScribe.Main
import PlanScribe.Proofs.Build.Failure
import PlanScribe.Proofs.Plan.Printing
import PlanScribe.Proofs.Document.Building
import PlanScribe.Proofs.Document.Delivery
import PlanScribe.Proofs.Document.OnFile
import PlanScribe.Proofs.Build.Parts
import PlanScribe.Proofs.Build.Suites
import PlanScribe.Proofs.Layout.Outline
import PlanScribe.Proofs.Plan.Outline
import PlanScribe.Proofs.Document.LifeCycle
import PlanScribe.Proofs.Schema.Rows
import PlanScribe.Proofs.Schema.Grammar
import PlanScribe.Proofs.Schema.Alternatives
import PlanScribe.Proofs.Schema.Orders
import PlanScribe.Proofs.Schema.Spelling
import PlanScribe.Proofs.Schema.Decoding
import PlanScribe.Proofs.Layout.Template
import PlanScribe.Proofs.Document.Rendering
import PlanScribe.Proofs.Document.Regions
import PlanScribe.Proofs.Cli.Files
import PlanScribe.Proofs.Layout.Escaping
import PlanScribe.Proofs.Build.MemberOrder
import PlanScribe.Proofs.Cli.Signatures
import PlanScribe.Proofs.Plan.Labels
import PlanScribe.Proofs.Storage.Writing
import PlanScribe.Proofs.Plan.Writing
import PlanScribe.Proofs.Document.HeaderComment
import PlanScribe.Proofs.Plan.Signatures
import PlanScribe.Proofs.Text.Literal
import PlanScribe.Proofs.Plan.Docstrings
import PlanScribe.Proofs.Plan.Positions
import PlanScribe.Proofs.Layout.OpenScopes
