import FluentBuilders.Session
import FluentBuilders.Workspace
import FluentBuilders.Proofs.Delivery
import FluentBuilders.Proofs.Grouping
import FluentBuilders.Proofs.RoundOutcome
import FluentBuilders.Proofs.DirectoryWrite
import FluentBuilders.Proofs.UnitNames
import FluentBuilders.Proofs.LineLanguage
import FluentBuilders.Proofs.RoundBuilders
import FluentBuilders.Proofs.Agreement
import FluentBuilders.Proofs.SessionStore
import FluentBuilders.Proofs.RoundsInRow
import FluentBuilders.Proofs.LogBalance
import FluentBuilders.Proofs.LongerPrefix
import FluentBuilders.Proofs.SourcePaths
import FluentBuilders.Proofs.LineFaults
import FluentBuilders.Proofs.Layout
import FluentBuilders.Proofs.NameReadings
import FluentBuilders.Proofs.SiftedLists
import FluentBuilders.Proofs.ClassBraces
