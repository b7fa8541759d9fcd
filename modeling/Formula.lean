import Formula.Func
import Formula.Decimal.Plain
import Formula.Token
import Formula.Setting
import Formula.Text.Normal
import Formula.Text.Quoted
import Formula.Lexeme.Read
import Formula.Lexical
import Formula.Rpn
import Formula.Brackets
import Formula.Evaluator
import Formula.Expr
import Formula.Grammar.Basic
import Formula.Grammar.Spelling
import Formula.Compiled
import Formula.Journal
import Formula.Error
import Formula.Job
import Formula.Session
import Formula.Proofs.Outcome
import Formula.Proofs.Machine
import Formula.Proofs.Trees
import Formula.Proofs.Step
import Formula.Proofs.Ordering
import Formula.Proofs.Pipeline
import Formula.Proofs.Contents
import Formula.Proofs.Sentences
import Formula.Proofs.Placing
import Formula.Proofs.Juxtaposition
import Formula.Proofs.Ranking
import Formula.Proofs.Spelled
import Formula.Proofs.Threshold
import Formula.Proofs.Groups
import Formula.Proofs.Enclosing
import Formula.Proofs.Pairing
import Formula.Proofs.Commas
import Formula.Proofs.Variables
import Formula.Proofs.Sessions
import Formula.Proofs.Origins
import Formula.Proofs.Dropping
import Formula.Proofs.Symbols
import Formula.Proofs.Substitution
import Formula.Proofs.Erasing
import Formula.Proofs.Arguments
import Formula.Proofs.Settled
import Formula.Proofs.Longest
import Formula.Proofs.Offending
import Formula.Proofs.Raising
import Formula.Proofs.Respelling
import Formula.Proofs.Subscripts
import Formula.Proofs.Modes
import Formula.Proofs.Layers
import Formula.Proofs.Names
import Formula.Proofs.Sameness
