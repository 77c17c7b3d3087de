import CqlWorkload.Pattern.Match
import CqlWorkload.Pattern.Reader

/-!
# Matchers

A matcher reads written patterns: it says of which texts a pattern matches the
whole, or what is wrong with it.  Whatever asks for patterns takes any matcher;
the standard one is made of the reader and the engine of this library.

**Limits.** The standard matcher knows no character by its name.  It forgets the
groups of an attempt that was given up, and where case is ignored it treats the
letters beyond the first plane in a set as it treats them elsewhere.
-/

namespace CqlWorkload

structure Matcher where
  /-- The texts that a pattern matches, with case ignored or not. -/
  read : Bool → String → Except Pattern.Fault (String → Bool)

namespace Matcher

def standard : Matcher where
  read foldCase pattern := Pattern.matches? <$> Pattern.read foldCase pattern

end Matcher
end CqlWorkload
