import LightningTemplate.Main
import LightningTemplate.Session
import LightningTemplate.Proofs.Occurrence
import LightningTemplate.Proofs.Yield
import LightningTemplate.Proofs.Siblings
import LightningTemplate.Proofs.Hoisting
import LightningTemplate.Proofs.GetterAccount
import LightningTemplate.Proofs.GetterOrder
import LightningTemplate.Proofs.Naming
import LightningTemplate.Proofs.Opening
import LightningTemplate.Proofs.RawExpression
import LightningTemplate.Proofs.RoundTrip
import LightningTemplate.Proofs.Writer
import LightningTemplate.Proofs.MarkAccount
import LightningTemplate.Proofs.SummaryCount
import LightningTemplate.Proofs.BundleKept
import LightningTemplate.Proofs.Beside
import LightningTemplate.Proofs.TableReach
import LightningTemplate.Proofs.Invisible
import LightningTemplate.Proofs.Layout
import LightningTemplate.Proofs.Indentation
import LightningTemplate.Proofs.PathToken
import LightningTemplate.Proofs.GetterCapture
import LightningTemplate.Proofs.PartPlace
import LightningTemplate.Proofs.InUse
import LightningTemplate.Proofs.UnnamedTarget
import LightningTemplate.Proofs.Confined
import LightningTemplate.Proofs.DirectoryMade
import LightningTemplate.Proofs.Isolation
import LightningTemplate.Proofs.PartWritten
import LightningTemplate.Proofs.Preview
import LightningTemplate.Proofs.Family
import LightningTemplate.Proofs.ExpressionForm
import LightningTemplate.Proofs.Rewriting
import LightningTemplate.Proofs.Lexeme
import LightningTemplate.Proofs.TokenForm
import LightningTemplate.Proofs.TokenSpacing
import LightningTemplate.Proofs.Classification
import LightningTemplate.Proofs.Branches
import LightningTemplate.Proofs.InjectedKey
import LightningTemplate.Proofs.FacetMargin
import LightningTemplate.Proofs.WarningAccount
import LightningTemplate.Proofs.SiteText
import LightningTemplate.Proofs.DirectiveBinding
import LightningTemplate.Proofs.MixedValue
import LightningTemplate.Proofs.StaticValue
import LightningTemplate.Proofs.NameWords
import LightningTemplate.Proofs.AttributeNames
import LightningTemplate.Proofs.PrefixReader
import LightningTemplate.Proofs.Reread
import LightningTemplate.Proofs.TableMerge
import LightningTemplate.Proofs.CamelName
import LightningTemplate.Proofs.FieldList
import LightningTemplate.Proofs.CollectedFiles
import LightningTemplate.Proofs.DependencyOrder
import LightningTemplate.Proofs.AttributeReader
