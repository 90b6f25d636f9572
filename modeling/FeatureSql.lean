import FeatureSql.CommandLine
import FeatureSql.Main
import FeatureSql.Session
import FeatureSql.Proofs.Expr.Arguments
import FeatureSql.Proofs.Feature.Filter
import FeatureSql.Proofs.Feature.QueryString
import FeatureSql.Proofs.Fragment.Statement
import FeatureSql.Proofs.Layout.Query
import FeatureSql.Proofs.Session
import FeatureSql.Proofs.Spatial.Naming
import FeatureSql.Proofs.Spatial.Stack
import FeatureSql.Proofs.Translate.Accepted
import FeatureSql.Proofs.Translate.Check
import FeatureSql.Proofs.Translate.Explicit
import FeatureSql.Proofs.Translate.Kept
import FeatureSql.Proofs.Translate.Meaning
import FeatureSql.Proofs.Translate.Names
import FeatureSql.Proofs.Translate.Recognized
import FeatureSql.Proofs.Translate.Selection
import FeatureSql.Proofs.Translate.Spelling
import FeatureSql.Proofs.Translate.Tree
import FeatureSql.Proofs.Translate.Written
