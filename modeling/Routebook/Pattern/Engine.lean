/-!
# Pattern engines

Patterns are written by users and read by an engine. **What can be read and what is matched is the
engine's business:** whatever uses patterns takes the engine as it comes, and knows only that a
pattern that can be read says of each text whether it is matched there.
-/

namespace Routebook

class PatternEngine where
  /-- What a pattern matches, if it can be read: whether some part of a text is matched. -/
  read? : String → Option (String → Bool)

end Routebook
