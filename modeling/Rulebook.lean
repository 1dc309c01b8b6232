import Rulebook.Http.Exchange
import Rulebook.Http.Server
import Rulebook.Rule.Cleaning
import Rulebook.Rule.Json
import Rulebook.Rule.Parser
import Rulebook.Rule.Verdict
import Rulebook.Service.Basic
import Rulebook.Settings.Load
import Rulebook.Store.Faulty
import Rulebook.Store.FolderStore
import Rulebook.Store.Memory
import Rulebook.Proofs.Grammar
import Rulebook.Proofs.Numeral
import Rulebook.Proofs.Shortest
import Rulebook.Proofs.LetterCase
import Rulebook.Proofs.Lexing
import Rulebook.Proofs.Literal
import Rulebook.Proofs.Printing
import Rulebook.Proofs.CanonicalText
import Rulebook.Proofs.Alike
import Rulebook.Proofs.Collapse
import Rulebook.Proofs.LiteralCase
import Rulebook.Proofs.CleanText
import Rulebook.Proofs.Resolution
import Rulebook.Proofs.StoredRule
import Rulebook.Proofs.CombinedText
import Rulebook.Run
import Rulebook.Service.Call
import Rulebook.Proofs.TableParts
import Rulebook.Proofs.KeptRules
import Rulebook.Proofs.Journal
import Rulebook.Proofs.Exchanges
import Rulebook.Proofs.Conjunction
import Rulebook.Store.Call
import Rulebook.Proofs.FolderFiles
import Rulebook.Proofs.FolderLookup
import Rulebook.Proofs.FolderMirror
import Rulebook.Proofs.ByteOrder
import Rulebook.Proofs.SavedRules
import Rulebook.Proofs.ImportedRules
import Rulebook.Proofs.ListedIds
import Rulebook.Proofs.JsonNumber
import Rulebook.Proofs.JsonDouble
import Rulebook.Proofs.JsonText
import Rulebook.Proofs.JsonFormula
import Rulebook.Proofs.LeafVerdicts
import Rulebook.Rule.TokenStream
import Rulebook.Proofs.Splitting
import Rulebook.Proofs.ViablePrefix
import Rulebook.Proofs.CleanedTokens
import Rulebook.Proofs.FolderChange
import Rulebook.Proofs.InterruptedSave
import Rulebook.Proofs.ForeignFile
import Rulebook.Proofs.MappedLiterals
import Rulebook.Proofs.AsciiCase
import Rulebook.Proofs.CaseBlind
import Rulebook.Proofs.NumeralMeaning
import Rulebook.Proofs.Nearest
import Rulebook.Proofs.NumberOrder
import Rulebook.Proofs.ReadJson
import Rulebook.Proofs.EnteredValues
import Rulebook.Proofs.RulePaths
import Rulebook.Proofs.ScannedRules
import Rulebook.Proofs.WrittenLine
import Rulebook.Proofs.JournalFile
import Rulebook.Proofs.CleanForm
import Rulebook.Proofs.NamedRules
import Rulebook.Proofs.LayeredSettings
import Rulebook.Proofs.SeparatedTexts
import Rulebook.Proofs.ExactLiterals
