import AttrExpr.Main
import AttrExpr.Proofs.Attribute.Naming
import AttrExpr.Proofs.Attribute.Recording
import AttrExpr.Proofs.Attribute.Repetition
import AttrExpr.Proofs.Attribute.Several
import AttrExpr.Proofs.Attribute.Tableless
import AttrExpr.Proofs.Attribute.Visibility
import AttrExpr.Proofs.Builtin.ExactDivision
import AttrExpr.Proofs.Builtin.IntegerComparison
import AttrExpr.Proofs.Builtin.PairwiseComparison
import AttrExpr.Proofs.Builtin.Regrouping
import AttrExpr.Proofs.Builtin.RunningTotal
import AttrExpr.Proofs.Command.Agreement
import AttrExpr.Proofs.Command.Independence
import AttrExpr.Proofs.Command.Options
import AttrExpr.Proofs.Eval.Culprit
import AttrExpr.Proofs.Eval.Enclosed
import AttrExpr.Proofs.Eval.Names
import AttrExpr.Proofs.Eval.Relocation
import AttrExpr.Proofs.Eval.Result
import AttrExpr.Proofs.Eval.Substitution
import AttrExpr.Proofs.Eval.Walk
import AttrExpr.Proofs.Float.Nearest
import AttrExpr.Proofs.Node.Outline
import AttrExpr.Proofs.Node.ReadBack
import AttrExpr.Proofs.Node.Subtree
import AttrExpr.Proofs.Node.Tiling
import AttrExpr.Proofs.Parse.Continuation
import AttrExpr.Proofs.Parse.FirstFault
import AttrExpr.Proofs.Parse.NumberToken
import AttrExpr.Proofs.Parse.Progress
import AttrExpr.Proofs.Parse.Relocation
import AttrExpr.Proofs.Parse.Shift
import AttrExpr.Proofs.Value.Copy
import AttrExpr.Proofs.Value.Display
