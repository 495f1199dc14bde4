import GraphLogic.Formula.Reading
import GraphLogic.Formula.Writing
import GraphLogic.Diagnostic
import GraphLogic.Scope
import GraphLogic.Analysis.Finding
import GraphLogic.Analysis
import GraphLogic.Graph
import GraphLogic.Graph.Component
import GraphLogic.Graph.Minor
import GraphLogic.Graph.Family
import GraphLogic.VertexSet
import GraphLogic.VertexSet.Subsets
import GraphLogic.Assignment
import GraphLogic.Evaluation
import GraphLogic.Pipeline
import GraphLogic.Text.Scan
import GraphLogic.Token.Choice
import GraphLogic.Toml.Document
import GraphLogic.Config
import GraphLogic.Report
import GraphLogic.CommandLine
import GraphLogic.Main
import GraphLogic.Proofs.Evaluation.Satisfaction
import GraphLogic.Proofs.Pipeline
import GraphLogic.Proofs.Token.Choice
import GraphLogic.Proofs.Token.Munch
import GraphLogic.Proofs.Formula.Text
import GraphLogic.Proofs.Formula.Writing
import GraphLogic.Proofs.Evaluation.Outcome
import GraphLogic.Proofs.Graph.Path
import GraphLogic.Proofs.Evaluation.Connectedness
import GraphLogic.Proofs.Evaluation.Isomorphism
import GraphLogic.Proofs.Graph.Minor
import GraphLogic.Graph.InPlace
import GraphLogic.Proofs.Graph.InPlace
import GraphLogic.Proofs.Formula.Reading.Viable
import GraphLogic.Proofs.Formula.Refusal
import GraphLogic.Proofs.Text.Span
import GraphLogic.Proofs.Token.Cutting
import GraphLogic.Proofs.Formula.Phrase.Tree
import GraphLogic.Proofs.Formula.Places
import GraphLogic.Formula.Choice
import GraphLogic.Proofs.Formula.Choice
import GraphLogic.Analysis.Traversal
import GraphLogic.Proofs.Analysis.Traversal
import GraphLogic.Proofs.Layout
import GraphLogic.Proofs.Analysis.Places
import GraphLogic.Proofs.Diagnostic
import GraphLogic.Proofs.Token.Blank
import GraphLogic.Proofs.Session
import GraphLogic.VertexSet.Calls
import GraphLogic.Proofs.VertexSet.Calls
import GraphLogic.Proofs.Evaluation.Coincidence
import GraphLogic.Proofs.Analysis.Unused
import GraphLogic.Proofs.Formula.Nodes
import GraphLogic.Proofs.Analysis.Warnings
import GraphLogic.Proofs.VertexSet.Remaining
import GraphLogic.Graph.Search
import GraphLogic.Proofs.Graph.Component
import GraphLogic.Proofs.Graph.Search
import GraphLogic.Proofs.Graph.SimplePath
import GraphLogic.Proofs.Graph.Forest
import GraphLogic.Proofs.Graph.Elimination
import GraphLogic.Proofs.Graph.Contraction
import GraphLogic.Proofs.Evaluation.Blame
import GraphLogic.Proofs.Evaluation.Equivalence
import GraphLogic.Proofs.Graph.Parts
import GraphLogic.Proofs.Graph.Complement
import GraphLogic.Proofs.Graph.Family
import GraphLogic.Proofs.Config
import GraphLogic.Proofs.Evaluation.Bipartite
import GraphLogic.Proofs.Token.Joining
import GraphLogic.Token.Stream
import GraphLogic.Proofs.Token.Stream
import GraphLogic.Assignment.Bindings
import GraphLogic.Proofs.Assignment
