/-
The lines of the helper module `brand`.

Branded types: a type made incompatible with its own structure.
-/
namespace ApiTypings.HelperModule

/-- Branded types: a type made incompatible with its own structure. -/
def brandLines : List String := [
  "declare const brand: unique symbol;",
  "",
  "/**",
  " * The \x7b@link Brand\x7d type brands the type \x7b@link T\x7d with a brand of the type",
  " * \x7b@link B\x7d. This makes it so the Branded type incompatible with the type of",
  " * \x7b@link T\x7d even though their data might be the same.",
  " *",
  " * In fancy terms it is a way of achieving",
  " * \x7b@link https://en.wikipedia.org/wiki/Nominal_type_system nominal typing\x7d",
  " * within TypeScripts",
  " * \x7b@link https://en.wikipedia.org/wiki/Structural_type_system structural typing\x7d.",
  " *",
  " * Usecases for branded types may be things such as certain types of validated",
  " * strings, ids and tokens.",
  " *",
  " * @example",
  " * \x60\x60\x60ts",
  " * type Password = Brand<string, \"Password\">;",
  " *",
  " * function isPassword(text: string): text is Password \x7b",
  " *   return text.length >= 8;",
  " * \x7d",
  " *",
  " * const input = \"this is a valid password\";",
  " *",
  " * if (isPassword(input)) \x7b",
  " *   // \x60input\x60 is now narrowed down to the branded type \x60Password\x60",
  " * \x7d",
  " * \x60\x60\x60",
  " */",
  "export type Brand<T, B> = T & \x7b [brand]: B \x7d;",
  "",
  "/**",
  " * Obtain the structural type of \x7b@link T\x7d extending \x7b@link Brand\x7d.",
  " */",
  "export type TypeOf<T extends Brand<unknown, unknown>> = T extends",
  "  Brand<infer U, infer _> ? U : never;",
  "",
  "/**",
  " * Obtain the brand of \x7b@link T\x7d extending \x7b@link Brand\x7d.",
  " */",
  "export type BrandOf<T extends Brand<unknown, unknown>> = T extends",
  "  Brand<infer _, infer B> ? B : never;"]

end ApiTypings.HelperModule
