import Recurrence.Configuration.Load
import Recurrence.Rule.Parser
import Recurrence.Schedule
import Recurrence.Proofs.Dates
import Recurrence.Proofs.Search
import Recurrence.Proofs.Occurs
import Recurrence.Proofs.MonthPeriods
import Recurrence.Proofs.NextDate
import Recurrence.Proofs.Walk
import Recurrence.Proofs.CountedSearch
import Recurrence.Proofs.CountedWalk
import Recurrence.Proofs.CalendarCycle
import Recurrence.Proofs.LaterMoments
import Recurrence.Proofs.LongSearch
import Recurrence.Proofs.WeeklyGap
import Recurrence.Proofs.EveryWeek
import Recurrence.Proofs.EquivalentRules
import Recurrence.Proofs.IgnoredParts
import Recurrence.Proofs.LaterStarts
import Recurrence.Proofs.Overruns
import Recurrence.Proofs.Gathering
import Recurrence.Proofs.ResolvedDays
import Recurrence.Proofs.DividedTime
import Recurrence.Proofs.Numerals
import Recurrence.Proofs.UntilText
import Recurrence.Proofs.UntilGrammar
import Recurrence.Proofs.Grammar
import Recurrence.Proofs.RoundTrip
import Recurrence.Proofs.Refusals
import Recurrence.Proofs.LoadedConfiguration
