/-
Selenium: names and files.

A suite is a class of the `unittest` library with one method per test case.  A method
records how its test ended and gives the browser back whatever happens; the class
prints a summary at its end.  Only methods and files with names that start with `test`
are found by the library.
-/
import FlowSuite.Layout.Line
import FlowSuite.Text.Quoted
import FlowSuite.Text.Words

namespace FlowSuite.Selenium

/-- The file of a suite. -/
def fileName (stem : String) : String :=
  let name := Text.snake stem
  if Text.startsWith name "test" then s!"{name}.py"
  else if name.isEmpty then "test_suite.py"
  else s!"test_{name}.py"

/-- The method of a test case, at a position in the suite. -/
def testName (title : Option String) (position : Nat) : String :=
  let name := (title.map Text.snake).getD ""
  if name.isEmpty then s!"test_case_{position}"
  else if Text.startsWith name "test" then name
  else s!"test_{name}"

/-- The class of a suite. -/
def className (suite : String) : String :=
  Text.identifier (Text.pascal suite) "TestSuite"

/-- The suite's name as it can stand in a documentation string. -/
def docText (suite : String) : String :=
  String.ofList ((Text.oneLine suite).toList.map fun c =>
    if c = '"' then '\x27' else if c = '\\' then '/' else c)

/-- The lines before the class. -/
def header : List Line :=
  [line "import datetime",
    line "import json",
    line "import os",
    line "import re",
    line "import time",
    line "import unittest",
    line "",
    line "from selenium import webdriver",
    line "from selenium.webdriver.common.by import By",
    line "",
    line "try:",
    below 1 "from colorama import Fore, Style, init",
    line "",
    below 1 "init(autoreset=True)",
    line "except ImportError:",
    below 1 "class _NoColor:",
    below 2 "def __getattr__(self, name):",
    below 3 "return \"\"",
    line "",
    below 1 "Fore = Style = _NoColor()",
    line "",
    line "",
    line "def log_step(message):",
    below 1 "timestamp = datetime.datetime.now().strftime(\"%H:%M:%S\")",
    below 1 "print(f\"\x7bFore.CYAN\x7d[STEP \x7btimestamp\x7d] \x7bmessage\x7d\")",
    line "",
    line "",
    line "def log_pass(message):",
    below 1 "print(f\"\x7bFore.GREEN\x7d[PASS] \x7bmessage\x7d\")",
    line "",
    line "",
    line "def log_fail(message):",
    below 1 "print(f\"\x7bFore.RED\x7d[FAIL] \x7bmessage\x7d\")",
    line "",
    line "",
    line "def log_info(message):",
    below 1 "print(f\"\x7bStyle.DIM\x7d[INFO] \x7bmessage\x7d\")",
    line "",
    line ""]

/-- The lines of the class before its test cases. -/
def classHead (suite : String) (cases : Nat) : List Line :=
  let plural := if cases = 1 then "" else "s"
  [line s!"class {className suite}(unittest.TestCase):",
    below 1 s!"\"\"\"{docText suite} ({cases} test case{plural})\"\"\"",
    line "",
    below 1 "results = []",
    line "",
    below 1 "def setUp(self):",
    below 2 "self.vars = \x7b\x7d",
    below 2 "self.screenshot_counter = 0",
    line "",
    below 1 "@classmethod",
    below 1 "def record(cls, name, passed, elapsed):",
    below 2 "cls.results.append((name, passed, elapsed))",
    below 2 "status = \"PASS\" if passed else \"FAIL\"",
    below 2 "log_info(f\"\x7bstatus\x7d \x7bname\x7d (\x7belapsed:.2f\x7ds)\")"]

/-- The text before the test cases. -/
def prologue (suite : String) (cases : Nat) : String :=
  Line.renderAll 0 (header ++ classHead suite cases)

/-- How far down the steps of a test case stand. -/
def bodyLevel : Nat := 3

/-- A test case around its steps. -/
def testCase (name body : String) : String :=
  let quoted := Text.quote name
  let started := Text.quote s!"Starting Test Case: {name}"
  let sheet : Sheet := { level := 1 }
  (((sheet.write
    [line "",
      line s!"def {name}(self):",
      below 1 s!"log_info({started})",
      below 1 "started = time.time()",
      below 1 "driver = None",
      below 1 "try:"]).paste body).write
    [below 2 s!"self.record({quoted}, True, time.time() - started)",
      below 1 "except Exception:",
      below 2 s!"self.record({quoted}, False, time.time() - started)",
      below 2 "raise",
      below 1 "finally:",
      below 2 "if driver is not None:",
      below 3 "log_info(\"Test finished. Closing driver.\")",
      below 3 "driver.quit()"]).text

/-- The text after the test cases. -/
def epilogue : String :=
  Line.renderAll 0
    [line "",
      below 1 "@classmethod",
      below 1 "def tearDownClass(cls):",
      below 2 "passed = sum(1 for _, ok, _ in cls.results if ok)",
      below 2 "failed = len(cls.results) - passed",
      below 2 "total = sum(elapsed for _, _, elapsed in cls.results)",
      below 2 "print(\"=\" * 60)",
      below 2 ("print(f\"Summary: \x7bpassed\x7d passed, \x7bfailed\x7d failed, " ++
        "\x7btotal:.2f\x7ds total\")"),
      below 2 "for name, ok, elapsed in cls.results:",
      below 3 "print(f\"  \x7b'PASS' if ok else 'FAIL'\x7d  \x7bname\x7d (\x7belapsed:.2f\x7ds)\")",
      below 2 "print(\"=\" * 60)",
      line "",
      line "",
      line "if __name__ == \"__main__\":",
      below 1 "unittest.main()"]

end FlowSuite.Selenium
