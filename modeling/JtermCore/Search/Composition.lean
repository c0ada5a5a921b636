import JtermCore.Search.Agreement

/-!
# Composing queries

What is printed in quotes is searched for as it is, two queries side by side ask
for what both ask for, and a `-` before a query of one term turns its answer
around.
-/

namespace JtermCore.Search

open ExecutionJournal Result Tasks Utf8

section

variable [SearchLibraries]

end

end JtermCore.Search
