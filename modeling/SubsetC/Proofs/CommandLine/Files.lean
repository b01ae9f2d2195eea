import SubsetC.CommandLine.World

/-!
# Files of a world

What can be read and written in a world is a matter of its files alone. A text that is written goes
to the place of the name, and every other file is still there afterwards.
-/

namespace SubsetC.CommandLine.World

variable {world other next : World} {name text : String}

end SubsetC.CommandLine.World
