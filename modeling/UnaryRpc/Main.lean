import UnaryRpc.Weather.Demo

open UnaryRpc.Weather

/-- Runs the demonstration against the address in the environment. -/
def main : IO UInt32 := do
  let run := Demo.run (← IO.getEnv "WEATHER_BASE_URL")
  for line in run.log do
    IO.eprintln (line.level.label ++ " " ++ line.text)
  for line in run.lastWords do
    IO.eprintln line
  return run.exitCode
