/-!
Powers of natural numbers.

They are the core library's wherever they are written, also beside a library that brings powers in
general monoids.
-/
attribute [instance (high), default_instance high] instPowNat
