import EntityModel.AliasToken
import EntityModel.Binary64.Reader
import EntityModel.Main
import EntityModel.Proofs.AliasCopies
import EntityModel.Proofs.Parser
import EntityModel.Proofs.Published
import EntityModel.Proofs.Session
import EntityModel.Proofs.Store
import EntityModel.Token.Reader
import EntityModel.Worker
import EntityModel.Proofs.LoadOrder
import EntityModel.Proofs.Worker
import EntityModel.Proofs.Cycles
import EntityModel.Proofs.PrimaryKeys
import EntityModel.Proofs.Visibility
import EntityModel.Proofs.AliasAgreement
import EntityModel.Proofs.Concatenation
import EntityModel.Proofs.Unmapped
import EntityModel.Proofs.RowKeys
import EntityModel.Proofs.Unrelated
import EntityModel.Proofs.ValidRows
import EntityModel.Proofs.Arrangement
import EntityModel.Proofs.CodeTypes
import EntityModel.Proofs.ColumnNames
import EntityModel.Proofs.Columns
import EntityModel.Proofs.DependencyCycle
import EntityModel.Proofs.KeyLookup
import EntityModel.Proofs.PublishedRows
import EntityModel.Proofs.KeyTypes
import EntityModel.Proofs.Projection
import EntityModel.Proofs.AliasOutcomes
import EntityModel.Proofs.DiagnosticPlaces
import EntityModel.Proofs.Symbols
import EntityModel.Proofs.TreeSpans
import EntityModel.Proofs.Excerpt
import EntityModel.Proofs.Covering
import EntityModel.Proofs.LookAhead
import EntityModel.Proofs.AliasKeys
import EntityModel.Proofs.Positions
import EntityModel.Proofs.NameWords
import EntityModel.Proofs.StringLiterals
import EntityModel.Proofs.Listings
import EntityModel.Proofs.ParserCalls
